import Payflow.Lib.Calendar
import Payflow.Spec.JsonReader

/-! # A reader of the stream

What a consumer makes of an entry of the stream: it reads the time as `datetime.fromisoformat` and
the payload as `json.loads` would. Both give back what `isoformat` and `json.dumps` have written. -/

namespace Payflow.Spec

open Payflow.Lib Payflow.Model

/-! ### Times -/

/-- A number, and the letter after it. -/
def readField (sep : Char) (l : List Char) : Option (ℕ × List Char) :=
  let x := readNumber l
  if x.2.head? = some sep then some (x.1, x.2.tail) else none

/-- The fraction of a second, if there is one. -/
def readFraction (l : List Char) : ℕ × List Char :=
  if l.head? = some '.' then readNumber l.tail else (0, l)

/-- The day of a date as it is written; the years of `dayOf` begin in March. -/
def dayOfWritten (year month day : ℕ) : ℕ :=
  dayOf (if month ≤ 2 then ⟨year - 1, month + 9, day⟩ else ⟨year, month - 3, day⟩)

/-- The instant of a text as `isoformat` writes it, in UTC. -/
def fromIsoformat (l : List Char) : Option ℕ :=
  (readField '-' l).bind fun year => (readField '-' year.2).bind fun month =>
    (readField 'T' month.2).bind fun day => (readField ':' day.2).bind fun hour =>
      (readField ':' hour.2).bind fun minute =>
        let seconds := readNumber minute.2
        let fraction := readFraction seconds.2
        if fraction.2 = "+00:00".toList then
          some ((((dayOfWritten year.1 month.1 day.1 - 719468) * 86400 + hour.1 * 3600 +
            minute.1 * 60 + seconds.1) * second) + fraction.1)
        else none

theorem isDigit_zeroPadded (width n : ℕ) : ∀ c ∈ zeroPadded width n, c.isDigit = true := by
  intro c hc
  rcases List.mem_append.mp hc with hc | hc
  · rw [List.eq_of_mem_replicate hc]
    rfl
  · rw [show (toString n).toList = Nat.toDigits 10 n from Nat.toList_repr] at hc
    exact isDigit_toDigits c hc

theorem numberOf_zeroPadded (width n : ℕ) : numberOf (zeroPadded width n) = n := by
  unfold zeroPadded
  rw [numberOf_zeros, show (toString n).toList = Nat.toDigits 10 n from Nat.toList_repr,
    numberOf_toDigits]

theorem readNumber_zeroPadded {width n : ℕ} {rest : List Char} (hrest : Past Char.isDigit rest) :
    readNumber (zeroPadded width n ++ rest) = (n, rest) := by
  rw [readNumber_append (isDigit_zeroPadded width n) hrest, numberOf_zeroPadded]

theorem readField_zeroPadded {sep : Char} (hsep : sep.isDigit = false) (width n : ℕ)
    (rest : List Char) : readField sep (zeroPadded width n ++ sep :: rest) = some (n, rest) := by
  unfold readField
  rw [readNumber_zeroPadded (past_cons hsep)]
  exact if_pos rfl

/-- The month of a date as it is written. -/
def writtenMonth (d : MarchDate) : ℕ := if d.month < 10 then d.month + 3 else d.month - 9

/-- The year of a date as it is written. -/
def writtenYear (d : MarchDate) : ℕ := d.year + if writtenMonth d ≤ 2 then 1 else 0

/-- The fraction of a second as it is written. -/
def fractionText (t : ℕ) : List Char :=
  if t % second = 0 then [] else '.' :: zeroPadded 6 (t % second)

theorem fields_append (year month day hour minute seconds fraction : List Char) :
    year ++ '-' :: month ++ '-' :: day ++ 'T' :: hour ++ ':' :: minute ++ ':' :: seconds ++ fraction ++
      "+00:00".toList =
    year ++ '-' :: (month ++ '-' :: (day ++ 'T' :: (hour ++ ':' :: (minute ++ ':' :: (seconds ++
      (fraction ++ "+00:00".toList)))))) := by
  simp only [List.append_assoc, List.cons_append]

theorem toList_isoformat (t : ℕ) {d : MarchDate}
    (hd : dateOf (t / second / 86400 + 719468) = d) : (isoformat t).toList =
    zeroPadded 4 (writtenYear d) ++ '-' :: (zeroPadded 2 (writtenMonth d) ++
      '-' :: (zeroPadded 2 d.day ++ 'T' :: (zeroPadded 2 (t / second % 86400 / 3600) ++
        ':' :: (zeroPadded 2 (t / second % 3600 / 60) ++ ':' ::
          (zeroPadded 2 (t / second % 60) ++ (fractionText t ++ "+00:00".toList)))))) := by
  unfold isoformat
  extract_lets seconds z doe yoe doy mp month year fraction
  have hz : dateOf z = d := hd
  have hseconds : t / second = seconds := rfl
  -- the numbers are left open, so that nothing is computed with them
  clear_value z seconds
  have hyoe : yearOfEra (z % 146097) = yoe := rfl
  have hdoy : z % 146097 - daysBefore yoe = doy := rfl
  have hdate : dateOf z = ⟨yoe + z / 146097 * 400, mp, doy - (153 * mp + 2) / 5 + 1⟩ := by
    unfold dateOf
    simp only
    rw [hyoe, hdoy]
  have hfraction : fractionText t = fraction := rfl
  have hmonth : (if mp < 10 then mp + 3 else mp - 9) = month := rfl
  have hyear : (yoe + z / 146097 * 400 + if month ≤ 2 then 1 else 0) = year := rfl
  rw [← hz, hdate, hfraction, hseconds]
  refine String.toList_ofList.trans ?_
  unfold writtenYear writtenMonth
  simp only
  rw [hmonth, hyear]
  exact fields_append _ _ _ _ _ _ _

theorem readFraction_fractionText (t : ℕ) :
    readFraction (fractionText t ++ "+00:00".toList) = (t % second, "+00:00".toList) := by
  unfold fractionText
  split_ifs with h
  · rw [h]
    rfl
  · exact readNumber_zeroPadded (past_cons rfl)

theorem past_fractionText (t : ℕ) : Past Char.isDigit (fractionText t ++ "+00:00".toList) := by
  unfold fractionText
  split_ifs <;> exact past_cons rfl

theorem dayOfWritten_written (z : ℕ) :
    dayOfWritten (writtenYear (dateOf z)) (writtenMonth (dateOf z)) (dateOf z).day =
      z := by
  have hmonth := month_dateOf z
  have hday := dayOf_dateOf z
  generalize dateOf z = d at hmonth hday
  obtain ⟨y, m, day⟩ := d
  unfold dayOfWritten writtenYear writtenMonth
  simp only at hmonth ⊢
  rw [← hday]
  congr 1
  split_ifs <;> simp <;> omega

/-- **The time is read back.** -/
theorem fromIsoformat_isoformat (t : ℕ) : fromIsoformat (isoformat t).toList = some t := by
  rw [toList_isoformat t rfl]
  unfold fromIsoformat
  rw [readField_zeroPadded rfl, Option.bind_some, readField_zeroPadded rfl, Option.bind_some,
    readField_zeroPadded rfl, Option.bind_some, readField_zeroPadded rfl, Option.bind_some,
    readField_zeroPadded rfl, Option.bind_some, readNumber_zeroPadded (past_fractionText t)]
  simp only
  rw [readFraction_fractionText, if_pos rfl, dayOfWritten_written]
  simp only [second]
  congr 1
  omega

/-! ### Entries -/

/-- All event types. -/
def eventTypes : List EventType :=
  [.paymentCreated, .paymentProcessing, .paymentSucceeded, .paymentFailed, .paymentAwaitingWebhook,
    .paymentRetryScheduled, .paymentReconciledSucceeded, .paymentReconciledFailed,
    .paymentRefundPending, .paymentRefunded, .paymentPartiallyRefunded, .refundCreated,
    .refundProcessing, .refundSucceeded, .refundFailed, .refundRetryScheduled]

theorem find?_eventTypes (type : EventType) :
    eventTypes.find? (fun t => t.text = type.text) = some type := by
  cases type <;> decide

/-- What a consumer gets from an entry. -/
structure OutboxMessage where
  eventId : Uuid
  aggregateId : Uuid
  eventType : EventType
  payload : Json
  createdAt : ℕ

/-- The event of an entry. -/
def readEntry (x : StreamEntry) : Option OutboxMessage :=
  (Uuid.ofText x.eventId).bind fun eventId => (Uuid.ofText x.aggregateId).bind fun aggregateId =>
    (eventTypes.find? fun t => t.text = x.eventType).bind fun type =>
      (loads x.payload.toList.length x.payload.toList).bind fun payload =>
        if payload.2 = [] then
          (fromIsoformat x.createdAt.toList).map fun createdAt =>
            ⟨eventId, aggregateId, type, payload.1, createdAt⟩
        else none

/-- **An entry is read back.** -/
theorem readEntry_streamEntry {row : OutboxEvent} (h : legible row.payload.jsonb = true) :
    readEntry (streamEntry row) =
      some ⟨row.id, row.aggregateId, row.eventType, row.payload.jsonb, row.createdAt⟩ := by
  have hpayload : loads row.payload.jsonb.dumps.length row.payload.jsonb.dumps =
      some (row.payload.jsonb, []) := by
    have hend : Past isNumberLetter [] := fun c hc => by cases hc
    have hread := loads_dumps row.payload.jsonb.dumps.length (Nat.le_refl _) h hend
    rwa [List.append_nil] at hread
  unfold readEntry streamEntry
  simp only [Uuid.ofText_text, find?_eventTypes, Option.bind_some, String.toList_ofList, hpayload,
    if_true, fromIsoformat_isoformat, Option.map_some]

end Payflow.Spec
