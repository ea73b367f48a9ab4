import Payflow.Spec.Ledger
import Payflow.Lib.Trail

/-! # The ledger of a payment is complete

`payment_events` records every change of a payment's status, as long as no failed refund is undone:
`restore_payment_after_failed_refund` brings a payment from `REFUND_PENDING` back to `SUCCEEDED` and
writes no event. A commit of it that has found its payment breaks the record (`audited_step`), and
nothing else does. -/

namespace Payflow.Safety

open Payflow.Lib Payflow.Model Payflow.Spec

variable {P : Platform}

/-- The record of a payment is complete: it begins with `PAYMENT_CREATED`, from no status to
`CREATED`, and ends with the status the payment has. -/
abbrev AuditTrail (D : Db) (p : Uuid) (current : PaymentStatus) : Prop :=
  Trail (fun e : PaymentEvent => e.previousStatus) (·.newStatus)
    (fun e => e.eventType = .paymentCreated ∧ e.newStatus = .created) (ledger D p) current

/-- A payment has a complete record, and what is no payment has none. -/
def Audited (D : Db) (p : Uuid) : Prop :=
  (D.payment? p = none → ledger D p = []) ∧
    ∀ row, D.payment? p = some row → AuditTrail D p row.status

/-- The step commits a `restore_payment_after_failed_refund` that has updated the payment. -/
def Undoes (p : Uuid) (s : State P) (a : Action (Start P) Pick) : Prop :=
  ∃ pid pick q now ws, ∃ r : BRes (.restorePaymentAfterFailedRefund q), ∃ refund,
    a = .step pid pick ∧
    Machine.AtCommit s pid (.restorePaymentAfterFailedRefund q) now ws r ∧ ws ≠ [] ∧
    s.db.refund? q = some refund ∧ refund.paymentId = p

theorem audited_booked {D D' : Db} {p : Uuid} {b : Block} {es : List PaymentEvent}
    {os : List OutboxEvent} (h : Audited D p) (hled : ledger D' p = ledger D p ++ es)
    (hb : Booked D p b (D.payment? p) (D'.payment? p) es os)
    (hq : ∀ q refund row, b = .restorePaymentAfterFailedRefund q → D.refund? q = some refund →
      refund.paymentId = p → D.payment? p = some row → row.status = .refundPending →
        ∀ row', D'.payment? p = some row' → row'.status = row.status) : Audited D' p := by
  obtain ⟨hnone, hsome⟩ := h
  unfold Audited AuditTrail
  rw [hled]
  generalize hbefore : D.payment? p = before at hb
  generalize hafter : D'.payment? p = after at hb
  cases hb with
  | untouched hst =>
    rw [List.append_nil]
    cases hb : before with
    | none =>
      subst hb
      refine ⟨fun _ => hnone hbefore, fun row hrow => ?_⟩
      simp [hrow] at hst
    | some row =>
      subst hb
      refine ⟨fun he => by simp [he] at hst, fun row' hrow' => ?_⟩
      simp only [hrow', Option.map_some, Option.some.injEq] at hst
      rw [hst]
      exact hsome row hbefore
  | @created row' e os htype hprev hnew hst =>
    have htrail : Trail (fun e : PaymentEvent => e.previousStatus) (·.newStatus)
        (fun e => e.eventType = .paymentCreated ∧ e.newStatus = .created) [e] e.newStatus :=
      .single ⟨htype, hnew⟩ hprev
    rw [hnew] at htrail
    rw [hnone hbefore, List.nil_append]
    refine ⟨fun he => by simp at he, fun row₁ hrow₁ => ?_⟩
    obtain rfl := Option.some.inj hrow₁
    rw [hst]
    exact htrail
  | @noted row row' e _ hst hprev hnew =>
    refine ⟨fun he => by simp at he, fun row₁ hrow₁ => ?_⟩
    obtain rfl := Option.some.inj hrow₁
    rw [hst, ← hnew]
    exact (hsome row hbefore).snoc hprev
  | @moved row row' e o hprev hnew hname =>
    refine ⟨fun he => by simp at he, fun row₁ hrow₁ => ?_⟩
    obtain rfl := Option.some.inj hrow₁
    rw [← hnew]
    exact (hsome row hbefore).snoc hprev
  | @released q refund row row' hbq hrefund hpay hst hst' =>
    have hsame := hq q refund row hbq hrefund hpay hbefore hst row' hafter
    rw [hst, hst'] at hsame
    simp at hsame

/-- A step that undoes no failed refund keeps the record complete. -/
theorem audited_step {s s' : State P} {a : Action (Start P) Pick} (h : Reachable P s)
    (hs : (payflow P).step s a = some s') {p : Uuid} (hp : Audited s.db p) (hno : ¬ Undoes p s a) :
    Audited s'.db p := by
  rcases step_commit h hs with
    hdb | ⟨pid, pick, b, now, ws, r, rfl, hcommit, hreq, hdoes, hdb⟩
  · rw [hdb]
    exact hp
  · rw [hdb]
    refine audited_booked hp (ledger_applyAll ws s.db p) (booked_of_does hdoes p) ?_
    rintro q refund row rfl hrefund hpay hrow hst row' hrow'
    by_cases hws : ws = []
    · subst hws
      have hsame : some row' = some row := hrow'.symm.trans hrow
      rw [Option.some.inj hsame]
    · exact absurd ⟨pid, pick, q, now, ws, r, refund, rfl, hcommit, hws, hrefund, hpay⟩ hno

/-- What a step that undoes a failed refund does: it releases the payment, and nothing more. -/
theorem undoes_step {s s' : State P} {a : Action (Start P) Pick} (h : Reachable P s)
    (hs : (payflow P).step s a = some s') {p : Uuid} (hno : Undoes p s a) :
    ∃ row row' cols, s.db.payment? p = some row ∧ row.status = .refundPending ∧
      s'.db.payment? p = some row' ∧ row'.status = .succeeded ∧
      s'.db = s.db.apply (.updatePayment p cols) := by
  obtain ⟨pid, pick, q, now, ws, r, refund, rfl, hcommit, hws, hq, hpay⟩ := hno
  obtain ⟨-, hdoes, hdb⟩ := atCommit_step h hcommit hs
  obtain ⟨rfl, -⟩ | ⟨refund₁, row, hq₁, hrow, hst, rfl⟩ := hdoes
  · exact absurd rfl hws
  obtain rfl := Option.some.inj (hq₁.symm.trans hq)
  rw [hpay] at hrow
  obtain rfl := payment_id hrow
  obtain ⟨row', hrow', hst'⟩ :
      ∃ row', s'.db.payment? row.id = some row' ∧ row'.status = .succeeded := by
    rw [hdb]
    exact ⟨_, payment?_update_self hrow _, rfl⟩
  exact ⟨row, row', _, hrow, hst, hrow', hst', hdb⟩

theorem undoes_breaks {s s' : State P} {a : Action (Start P) Pick} (h : Reachable P s)
    (hs : (payflow P).step s a = some s') {p : Uuid} (hp : Audited s.db p) (hno : Undoes p s a) :
    ¬ ∀ row, s'.db.payment? p = some row → AuditTrail s'.db p row.status := by
  intro hafter
  obtain ⟨row, row', cols, hrow, hst, hrow', hst', hdb⟩ := undoes_step h hs hno
  have htrail := hafter row' hrow'
  have hled : ledger s'.db p = ledger s.db p := by rw [hdb]; rfl
  rw [AuditTrail, hled] at htrail
  have hsame := (hp.2 row hrow).unique htrail
  rw [hst, hst'] at hsame
  simp at hsame

/-- **The ledger is complete.** In every run in which no step undoes a failed refund of the
payment, its events are a complete record of its status in every state; a step that does
breaks the record. -/
theorem ledger_complete {p : Uuid} {s : State P}
    (h : Machine.ReachableBy (payflow P) (fun s a => ¬ Undoes p s a) (init P) s) :
    (∀ row, s.db.payment? p = some row → AuditTrail s.db p row.status) ∧
    ∀ a s', (payflow P).step s a = some s' → Undoes p s a →
      ¬ ∀ row, s'.db.payment? p = some row → AuditTrail s'.db p row.status := by
  have haudit : Audited s.db p := by
    induction h with
    | refl => exact ⟨fun _ => rfl, fun row hrow => by simp [init, Db.payment?, Db.empty] at hrow⟩
    | step hr hno hs ih =>
      have hreach := hr.imp fun _ _ _ => trivial
      exact audited_step hreach hs ih hno
  have hreach := h.imp fun _ _ _ => trivial
  exact ⟨haudit.2, fun a s' hs hno => undoes_breaks hreach hs haudit hno⟩

/-- No step of the kind: a check for runs. -/
def undoesCheck (s : State P) : Action (Start P) Pick → Bool
  | .step pid _ =>
    match s.procs[pid]? with
    | some ⟨_, .inTxn (.restorePaymentAfterFailedRefund _) ⟨.pure _, _, _, _⟩ _⟩ => false
    | _ => true
  | _ => true

theorem not_undoes_of_check {p : Uuid} {s : State P} {a : Action (Start P) Pick}
    (h : undoesCheck s a = true) : ¬ Undoes p s a := by
  rintro ⟨pid, pick, q, now, ws, r, refund, rfl, ⟨x, ls, k, hp⟩, -⟩
  simp [undoesCheck, hp] at h

/-- The record of a payment with a refund of a part of it. -/
theorem ledger_complete_oneRefund : ∃ s : State examplePlatform,
    (ledger s.db (exampleUuid 1)).map (·.newStatus) =
      [.created, .processing, .succeeded, .refundPending, .succeeded] ∧
    (∀ row, s.db.payment? (exampleUuid 1) = some row →
      AuditTrail s.db (exampleUuid 1) row.status) ∧
    ∀ a s', (payflow examplePlatform).step s a = some s' → Undoes (exampleUuid 1) s a →
      ¬ ∀ row, s'.db.payment? (exampleUuid 1) = some row →
        AuditTrail s'.db (exampleUuid 1) row.status := by
  have h : ((payflow examplePlatform).runWhen undoesCheck (init _) (onePayment ++ oneRefund)).map
      (fun s => (ledger s.db (exampleUuid 1)).map (·.newStatus)) =
      some [.created, .processing, .succeeded, .refundPending, .succeeded] := by decide +kernel
  obtain ⟨s, hs, h⟩ := Option.map_eq_some_iff.mp h
  exact ⟨s, h, ledger_complete (.runWhen (fun _ _ => not_undoes_of_check) .refl hs)⟩

/-- The provider refuses the refund, and the refund is `FAILED`. -/
def failRefundScript (pid n : ℕ) : List Act :=
  [answer pid "provider_refund_id" "FAILED" n] ++ quiet pid 3 ++ draw pid [n + 1, n + 2] ++
    quiet pid 1

/-- A refund of a part of a payment that fails, up to the commit that releases the payment. -/
def failedRefund : List Act :=
  createRefundScript 2 partialRefund 10 ++ startRefundScript 3 1 14 ++ failRefundScript 3 16 ++
    quiet 3 3

/-- After a refund that has failed, the payment is `SUCCEEDED` and its record ends with
`REFUND_PENDING`. -/
theorem ledger_not_complete : ∃ (s : State examplePlatform) (row : Payment),
    Reachable examplePlatform s ∧ s.db.payment? (exampleUuid 1) = some row ∧
      ¬ AuditTrail s.db (exampleUuid 1) row.status := by
  have h : ((payflow examplePlatform).run (init _) (onePayment ++ failedRefund ++ quiet 3 1)).map
      (fun s => ((s.db.payment? (exampleUuid 1)).map (·.status),
        (ledger s.db (exampleUuid 1)).getLast?.map (·.newStatus))) =
      some (some .succeeded, some .refundPending) := by decide +kernel
  obtain ⟨s, hs, h⟩ := Option.map_eq_some_iff.mp h
  obtain ⟨hrow, hlast⟩ := Prod.mk.inj h
  obtain ⟨row, hrow, hst⟩ := Option.map_eq_some_iff.mp hrow
  refine ⟨s, row, .run hs, hrow, fun htrail => ?_⟩
  have hsame := htrail.last.symm.trans hlast
  rw [hst] at hsame
  simp at hsame

end Payflow.Safety
