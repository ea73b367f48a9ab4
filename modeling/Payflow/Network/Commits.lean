import Payflow.Network.Programs

/-! # The commits in the logic of captures

A transaction that is called as the logic asks keeps what holds of the whole: the row it sets points
at a record that has ended, and at one with success if it sets the payment to `SUCCEEDED`. -/

namespace Payflow.Network

open Payflow.Lib Payflow.Model Payflow.Spec Payflow.Safety

variable {P : Platform} {v : View} {b : Block} {now : ℕ} {ws : List Write} {r : BRes b}
  {row : Payment} {cols : PaymentCols}

/-- A payment that is neither settled nor failed has only to keep its record. -/
theorem rowOk_of_processing (h : RowOk v.provider row) (hs : cols.status = .processing)
    (hid : cols.providerPaymentId = row.providerPaymentId) :
    RowOk v.provider { row with toPaymentCols := cols } := by
  refine ⟨fun id hid' => h.recorded id (hid ▸ hid'), fun hs' => ?_, fun hs' => ?_⟩
  · rw [hs] at hs'
    simp [settled] at hs'
  · rw [hs] at hs'
    simp at hs'

/-- A payment that has a record with success, and no failure code. -/
theorem rowOk_of_captured {id : String} (hcode : cols.failureCode = none)
    (hid : cols.providerPaymentId = some id) (hr : HasRecord v.provider row.id id .succeeded)
    (hs : cols.status ≠ .failed) : RowOk v.provider { row with toPaymentCols := cols } := by
  refine ⟨fun id' hid' => Or.inl ?_, fun _ => ⟨hcode, id, hid, hr⟩, fun hs' => absurd hs' hs⟩
  obtain rfl := Option.some.inj (hid.symm.trans hid')
  exact hr

theorem rowOk_of_failed (hcode : cols.failureCode ≠ none) (hs : cols.status = .failed)
    (hrec : ∀ id, cols.providerPaymentId = some id →
      HasRecord v.provider row.id id .succeeded ∨ HasRecord v.provider row.id id .failed) :
    RowOk v.provider { row with toPaymentCols := cols } := by
  refine ⟨hrec, fun hs' => ?_, fun _ => hcode⟩
  rw [hs] at hs'
  simp [settled] at hs'

/-- A payment that has succeeded before keeps its record and has no failure code. -/
theorem rowOk_of_settled (h : RowOk v.provider row) (hs : row.status ∈ settled)
    (hid : cols.providerPaymentId = row.providerPaymentId)
    (hcode : cols.failureCode = row.failureCode)
    (hs' : cols.status ∈ settled) : RowOk v.provider { row with toPaymentCols := cols } := by
  obtain ⟨hnone, id, hrow, hr⟩ := h.captured hs
  refine rowOk_of_captured (hcode.trans hnone) (hid.trans hrow) hr fun hf => ?_
  rw [hf] at hs'
  simp [settled] at hs'

theorem eq_of_uuidParam (hP : PlatformLaws P) {p p' : Uuid}
    (h : (Json.str p.text).uuidParam P = .ok (some p')) : p' = p := by
  cases hparse : P.parseUuid p.text with
  | none => simp [Json.uuidParam, Json.uuidOfText, hparse] at h
  | some u =>
    simp only [Json.uuidParam, Json.uuidOfText, hparse, Except.ok.injEq, Option.some.injEq] at h
    exact h ▸ hP.parseUuid p u hparse

/-- **The row that a transaction sets** is as it should be, and keeps that it has an id. -/
theorem rowOk_set (hP : PlatformLaws P) (hinv : v.Inv P) (hreq : Requires b v.db)
    (hcall : Callable v b) (hrow : v.db.payment? row.id = some row)
    (hset : PaymentSet P now v.db row b cols) :
    RowOk v.provider { row with toPaymentCols := cols } ∧
      (row.providerPaymentId ≠ none → cols.providerPaymentId ≠ none) := by
  have hok := hinv.rows _ row hrow
  cases hset with
  | @transition type new provider failure provider' failure' hv hprov hfail =>
    have hkeep : row.providerPaymentId ≠ none → (provider' <|> row.providerPaymentId) ≠ none := by
      cases provider' <;> simp
    refine ⟨?_, hkeep⟩
    have hcode := eq_of_textParam_option hfail
    have hcall : Backed v row.id provider failure new := hcall
    cases new with
    | succeeded =>
      obtain ⟨rfl, id, rfl, hr⟩ := hcall
      obtain rfl := eq_of_textParam_str (P := P) hprov
      exact rowOk_of_captured hcode rfl hr (by simp)
    | failed =>
      obtain ⟨hsome, hid⟩ := hcall
      refine rowOk_of_failed (by rw [hcode]; exact hsome) rfl fun id' hid' => ?_
      rcases hid with rfl | ⟨id, rfl, hr⟩
      · obtain rfl := Except.ok.inj hprov
        exact hok.recorded id' hid'
      · obtain rfl := eq_of_textParam_str (P := P) hprov
        obtain rfl : id = id' := Option.some.inj hid'
        exact Or.inr hr
    | processing =>
      obtain rfl : provider = .null := hcall
      obtain rfl := Except.ok.inj hprov
      exact rowOk_of_processing hok rfl rfl
    | _ => simp [Requires, paymentMoves] at hreq
  | awaiting hs hprov =>
    obtain ⟨id, rfl, hr⟩ := hcall
    obtain rfl := eq_of_textParam_str (P := P) hprov
    refine ⟨⟨fun id' hid' => ?_, fun hs' => ?_, fun hs' => ?_⟩, fun _ => by simp⟩
    · obtain rfl : id = id' := Option.some.inj hid'
      exact Or.inl hr
    · have hs' : row.status ∈ settled := hs'
      simp [hs, settled] at hs'
    · have hs' : row.status = .failed := hs'
      simp [hs] at hs'
  | retry hs => exact ⟨rowOk_of_processing hok hs rfl, id⟩
  | webhook hs hfield hp hst hid hprov =>
    obtain ⟨eventId, p, id, rfl, hr⟩ := hcall
    obtain rfl := Except.ok.inj hfield
    obtain rfl := Except.ok.inj hst
    obtain rfl := Except.ok.inj hid
    obtain rfl := eq_of_textParam_str (P := P) hprov
    obtain rfl := eq_of_uuidParam hP hp
    exact ⟨rowOk_of_captured rfl rfl hr (by simp [webhookStatus, Json.isStr]), fun _ => by simp⟩
  | @reconcile status hs =>
    obtain ⟨⟨row', hrow', hid⟩, hrep⟩ := hcall
    obtain rfl := Option.some.inj (hrow.symm.trans hrow')
    obtain ⟨id, hid⟩ := Option.ne_none_iff_exists'.mp hid
    refine ⟨?_, fun h => h⟩
    cases status with
    | succeeded =>
      obtain ⟨id', hr⟩ := hrep
      exact rowOk_of_captured rfl hid (hinv.captured hr hrow hid) (by simp)
    | failed => exact rowOk_of_failed (by simp) rfl fun id' hid' => hok.recorded id' hid'
    | _ => exact hrep.elim
  | refund hs =>
    exact ⟨rowOk_of_settled hok (by simp [hs, settled]) rfl rfl (by simp [settled]), id⟩
  | @complete q refund total hq hp hrow hle hfull =>
    obtain ⟨row', hrow', hs⟩ := hinv.refunds q refund hq
    rw [hp, hrow] at hrow'
    obtain rfl := Option.some.inj hrow'
    exact ⟨rowOk_of_settled hok hs rfl rfl (statusAfterRefund_settled _ _), id⟩
  | restore hq hp hs =>
    exact ⟨rowOk_of_settled hok (by simp [hs, settled]) rfl rfl (by simp [settled]), id⟩

theorem rows_commit (hP : PlatformLaws P) (hinv : v.Inv P) (hreq : Requires b v.db)
    (hcall : Callable v b) (hdoes : Does P b now v.db ws r) (p : Uuid) {row' : Payment}
    (hrow' : (store.applyAll v.db ws).payment? p = some row') : RowOk v.provider row' ∧
      ∀ row, v.db.payment? p = some row → row.providerPaymentId ≠ none →
        row'.providerPaymentId ≠ none := by
  have hstep := row_step hdoes p
  rw [hrow'] at hstep
  generalize hp : v.db.payment? p = before at hstep
  generalize hafter : some row' = after at hstep
  cases hstep with
  | same =>
    subst hafter
    refine ⟨hinv.rows p row' hp, fun row hrow hid => ?_⟩
    obtain rfl := Option.some.inj hrow
    exact hid
  | new hb _ _ =>
    obtain rfl := Option.some.inj hafter
    refine ⟨⟨fun id hid => ?_, fun hs => ?_, fun hs => ?_⟩, fun row hrow => ?_⟩
    · simp [newPayment] at hid
    · simp [newPayment, settled] at hs
    · simp [newPayment] at hs
    · simp at hrow
  | @set row cols hset =>
    obtain rfl := Option.some.inj hafter
    obtain rfl := payment_id hp
    obtain ⟨hok, hkeep⟩ := rowOk_set hP hinv hreq hcall hp hset
    refine ⟨hok, fun row₁ hrow₁ hid => ?_⟩
    obtain rfl := Option.some.inj hrow₁
    exact hkeep hid

theorem refundRows_commit (hinv : v.Inv P) (hreq : Requires b v.db) (hcall : Callable v b)
    (hdoes : Does P b now v.db ws r) (q : Uuid) {refund' : Refund}
    (hq' : (store.applyAll v.db ws).refund? q = some refund') (hs : refund'.status = .succeeded) :
    ∃ id, HasRefund v.provider q id .succeeded := by
  have hstep := refund_step hreq hdoes q
  rw [hq'] at hstep
  generalize hq : v.db.refund? q = before at hstep
  cases hstep with
  | new => simp [newRefund] at hs
  | keep he => exact hinv.refundRows q _ hq (he.symm.trans hs)
  | move hm =>
    rw [hs] at hm
    cases hm with
    | transition => exact hcall

/-- **A commit** keeps what holds of the whole. -/
theorem inv_commit (hP : PlatformLaws P) (hinv : v.Inv P) (hreq : Requires b v.db)
    (hcall : Callable v b) (hdoes : Does P b now v.db ws r) :
    View.Inv P { v with db := store.applyAll v.db ws } ∧
      v.Le { v with db := store.applyAll v.db ws } := by
  have hkeep := keep_of_does hinv.db hreq hdoes
  have hle : v.Le { v with db := store.applyAll v.db ws } :=
    ⟨hkeep.2.toGrown, fun p row row' hrow hrow' hid =>
      (rows_commit hP hinv hreq hcall hdoes p hrow').2 row hrow hid, fun _ _ h => h,
      .refl _, .refl _⟩
  refine ⟨⟨hkeep.1, refundsSettled_step hinv.db hreq hdoes hinv.refunds, fun p row' hrow' => ?_,
    fun q refund' hq' hs => refundRows_commit hinv hreq hcall hdoes q hq' hs,
    fun id r hr => (hinv.records id r hr).mono hle,
    fun id r hr => (hinv.refundRecords id r hr).mono hle, hinv.scenarios, hinv.refundScenarios⟩,
    hle⟩
  exact (rows_commit hP hinv hreq hcall hdoes p hrow').1

end Payflow.Network
