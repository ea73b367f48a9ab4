import Payflow.Lib.Inserts
import Payflow.Spec.Runs

/-! # The ledger of the payments

`payment_events` only grows. What a commit adds to it is read off its writes, and so is how many of
the new rows report that a refund is complete. -/

namespace Payflow.Spec

open Payflow.Lib Payflow.Model

/-- The new event of a write. -/
def newPaymentEvent? : Write → Option PaymentEvent
  | .insertPaymentEvent row => some row
  | _ => none

theorem paymentEvents_applyAll (ws : List Write) (D : Db) :
    (store.applyAll D ws).paymentEvents = D.paymentEvents ++ ws.filterMap newPaymentEvent? :=
  Store.rows_applyAll (fun D w => by cases w <;> simp [store, Db.apply, newPaymentEvent?]) ws D

/-- The event reports that the refund is complete: its type is `PAYMENT_PARTIALLY_REFUNDED` or
`PAYMENT_REFUNDED`, and `metadata.refund_id` is the refund. -/
def completes (q : Uuid) (e : PaymentEvent) : Bool :=
  (e.eventType = .paymentPartiallyRefunded ∨ e.eventType = .paymentRefunded) ∧
    (e.metadata.getItem "refund_id").toOption.any fun v => v.isStr q.text

/-- How often the ledger reports that the refund is complete. -/
def completions (D : Db) (q : Uuid) : ℕ := D.paymentEvents.countP (completes q)

/-- How often the transaction reports it. -/
def completionsOf (q : Uuid) : Block → ℕ
  | .completeSuccessfulRefund q' => if q' = q then 1 else 0
  | _ => 0

/-- The event reports that the payment was created. -/
def creates (p : Uuid) (e : PaymentEvent) : Bool := e.eventType = .paymentCreated ∧ e.paymentId = p

/-- The new rows of a commit: none or one. -/
inductive NewPaymentEvents (D D' : Db) : Block → List PaymentEvent → Prop
  | none {b} : (∀ q, b ≠ .completeSuccessfulRefund q) → NewPaymentEvents D D' b []
  | created {m k hash u a c e} : e.eventType = .paymentCreated → D.payment? e.paymentId = none →
      (D'.payment? e.paymentId).isSome = true →
      NewPaymentEvents D D' (.createIdempotentPayment m k hash u a c) [e]
  | completed {q e} : e.eventType ≠ .paymentCreated → (∀ q', completes q' e = decide (q = q')) →
      NewPaymentEvents D D' (.completeSuccessfulRefund q) [e]
  | other {b e} : (∀ q, b ≠ .completeSuccessfulRefund q) → e.eventType ≠ .paymentCreated →
      e.eventType ≠ .paymentPartiallyRefunded → e.eventType ≠ .paymentRefunded →
      NewPaymentEvents D D' b [e]

theorem eventAfterRefund_cases (total amount : ℕ) :
    eventAfterRefund total amount = .paymentPartiallyRefunded ∨
      eventAfterRefund total amount = .paymentRefunded := by
  unfold eventAfterRefund
  split_ifs
  · exact Or.inr rfl
  · exact Or.inl rfl

theorem completes_afterRefund {q q' event p : Uuid} {total amount now : ℕ}
    {before : Option PaymentStatus} {new : PaymentStatus} :
    completes q ⟨event, p, eventAfterRefund total amount, before, new, .obj
      [("refund_id", .str q'.text), ("total_refunded_cents", .int total)], now⟩ = decide (q' = q) := by
  have htype := eventAfterRefund_cases total amount
  have htext : (q'.text == q.text) = decide (q' = q) := by
    by_cases hq : q' = q
    · simp [hq]
    · have hne : q'.text ≠ q.text := fun h => hq (Uuid.text_inj h)
      simp [hq, hne]
  simp [completes, htype, Json.getItem, Json.isStr, Except.toOption, htext]

theorem completes_of_type {q : Uuid} {e : PaymentEvent}
    (h₁ : e.eventType ≠ .paymentPartiallyRefunded)
    (h₂ : e.eventType ≠ .paymentRefunded) : completes q e = false := by
  simp [completes, h₁, h₂]

/-- **The rows that a commit adds to the ledger.** -/
theorem newPaymentEvents_of_does {P : Platform} {b : Block} {now : ℕ} {D : Db} {ws : List Write}
    {r : BRes b} (hreq : Requires b D) (h : Does P b now D ws r) :
    NewPaymentEvents D (store.applyAll D ws) b (ws.filterMap newPaymentEvent?) := by
  cases b with
  | getExistingPayment | getPayment | reconcileSelect | getRefund | selectProviderPaymentId =>
    rw [h.1]
    exact .none (by simp)
  | createIdempotentPayment m k hash u a c =>
    rcases h with ⟨id, event, c', -, hid, -, -, rfl, rfl⟩ | ⟨row, -, -, -, rfl⟩
    · have hnew : D.payment? (newPayment now id m k hash u a c').id = none := hid
      refine .created rfl hid ?_
      have hself := payment?_insert_self hnew
      exact Option.isSome_iff_exists.mpr ⟨_, hself⟩
    · exact .none (by simp)
  | recordTransition p type new provider failure =>
    obtain ⟨row, -, ⟨-, rfl⟩ | ⟨-, prov, fail, event, outbox, -, -, rfl⟩⟩ := h
    · exact .none (by simp)
    · refine .other (by simp) ?_ ?_ ?_ <;> (rintro rfl; simp [Requires, paymentMoves] at hreq)
  | recordAwaitingWebhook =>
    obtain ⟨row, -, ⟨-, rfl⟩ | ⟨-, prov, event, -, rfl⟩⟩ := h
    · exact .none (by simp)
    · exact .other (by simp) (by simp) (by simp) (by simp)
  | recordRetry =>
    obtain ⟨row, -, ⟨-, rfl⟩ | ⟨-, event, rfl⟩⟩ := h
    · exact .none (by simp)
    · exact .other (by simp) (by simp) (by simp) (by simp)
  | receiveProviderWebhook =>
    obtain ⟨eventId, -, rfl⟩ | ⟨w, eventId, field, p, row, status, -, -, -, -, -, -, -, h⟩ := h
    · exact .none (by simp)
    rcases h with ⟨-, -, rfl⟩ | ⟨-, -, provider, event, outbox, -, rfl⟩
    · exact .none (by simp)
    · refine .other (by simp) ?_ ?_ ?_ <;> (show (if _ then _ else _) ≠ _; split_ifs <;> simp)
  | reconcileOne =>
    obtain ⟨-, rfl⟩ | ⟨-, row, event, outbox, -, -, rfl⟩ := h
    · exact .none (by simp)
    · refine .other (by simp) ?_ ?_ ?_ <;> (show (if _ then _ else _) ≠ _; split_ifs <;> simp)
  | createRefund =>
    obtain ⟨row, id, c, e₁, e₂, e₃, -, -, -, -, -, -, -, -, -, rfl, rfl⟩ | ⟨_, -, -, rfl⟩ := h
    · exact .other (by simp) (by simp) (by simp) (by simp)
    · exact .none (by simp)
  | recordRefundTransition =>
    obtain ⟨row, -, ⟨-, rfl⟩ | ⟨-, prov, event, outbox, rfl⟩⟩ := h <;> exact .none (by simp)
  | recordRefundRetry => obtain rfl | ⟨row, event, -, -, rfl⟩ := h <;> exact .none (by simp)
  | completeSuccessfulRefund q =>
    obtain ⟨refund, row, total, event, outbox, -, -, -, -, rfl⟩ := h
    refine .completed ?_ fun q' => completes_afterRefund
    show eventAfterRefund total row.amountCents ≠ _
    rcases eventAfterRefund_cases total row.amountCents with he | he <;> simp [he]
  | restorePaymentAfterFailedRefund =>
    obtain ⟨rfl, -⟩ | ⟨refund, row, -, -, -, rfl⟩ := h <;> exact .none (by simp)

theorem completionsOf_eq {b : Block} {q : Uuid} (h : b ≠ .completeSuccessfulRefund q) :
    completionsOf q b = 0 := by
  cases b with
  | completeSuccessfulRefund q' => exact if_neg fun hq => h (by rw [hq])
  | _ => rfl

/-- **The reports of a commit** on a refund. -/
theorem completions_of_does {P : Platform} {b : Block} {now : ℕ} {D : Db} {ws : List Write}
    {r : BRes b} (hreq : Requires b D) (h : Does P b now D ws r) (q : Uuid) :
    completions (store.applyAll D ws) q = completions D q + completionsOf q b := by
  unfold completions
  rw [paymentEvents_applyAll, List.countP_append]
  congr 1
  have hnew := newPaymentEvents_of_does hreq h
  generalize ws.filterMap newPaymentEvent? = new at hnew
  cases hnew with
  | none hb => exact (completionsOf_eq (hb q)).symm
  | created hcreated =>
    simp [completes_of_type (q := q) (by rw [hcreated]; simp) (by rw [hcreated]; simp),
      completionsOf]
  | completed _ hcompletes => simp [hcompletes, completionsOf, List.countP_singleton]
  | other hb _ h₁ h₂ => simp [completes_of_type h₁ h₂, completionsOf_eq (hb q)]

/-- A payment is reported as created once, and only if it is there. -/
def CreatedOnce (D : Db) (p : Uuid) : Prop :=
  D.paymentEvents.countP (creates p) ≤ 1 ∧
    (D.payment? p = none → D.paymentEvents.countP (creates p) = 0)

theorem createdOnce_step {P : Platform} {b : Block} {now : ℕ} {D : Db} {ws : List Write}
    {r : BRes b} (hi : Inv D) (hreq : Requires b D) (h : Does P b now D ws r) {p : Uuid}
    (hp : CreatedOnce D p) : CreatedOnce (store.applyAll D ws) p := by
  obtain ⟨hone, hnone⟩ := hp
  have hback : (store.applyAll D ws).payment? p = none → D.payment? p = none := by
    intro hp'
    cases hp : D.payment? p with
    | none => rfl
    | some row =>
      obtain ⟨row', hrow', -⟩ := (keep_of_does hi hreq h).2.payment hp
      simp [hp'] at hrow'
  have hnew := newPaymentEvents_of_does hreq h
  unfold CreatedOnce
  rw [paymentEvents_applyAll, List.countP_append]
  generalize ws.filterMap newPaymentEvent? = new at hnew
  have hsame : new.countP (creates p) = 0 →
      D.paymentEvents.countP (creates p) + new.countP (creates p) ≤ 1 ∧
        ((store.applyAll D ws).payment? p = none →
          D.paymentEvents.countP (creates p) + new.countP (creates p) = 0) := by
    intro hzero
    refine ⟨by omega, fun hp' => ?_⟩
    rw [hzero, hnone (hback hp')]
  cases hnew with
  | none => exact hsame rfl
  | completed htype => exact hsame (by simp [creates, htype])
  | other _ htype => exact hsame (by simp [creates, htype])
  | @created m k hash u a c e htype hbefore hafter =>
    by_cases hp : e.paymentId = p
    · subst hp
      have hzero := hnone hbefore
      have hcount : [e].countP (creates e.paymentId) = 1 := by simp [creates, htype]
      refine ⟨by omega, fun hp' => ?_⟩
      simp [hp'] at hafter
    · exact hsame (by simp [creates, hp])

end Payflow.Spec
