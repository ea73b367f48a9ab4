import Payflow.Safety.OverRefund
import Payflow.Safety.Lifecycle

/-! # `REFUNDED` is exact and final

A payment is `REFUNDED` only when its refunds that have succeeded add up to its amount. They add up
to no more, and no refund is on its way, since these and the ones on their way are bounded together
(`Covered`) and every refund has an amount (`Positive`). No commit takes the status away. -/

namespace Payflow.Safety

open Payflow.Lib Payflow.Model Payflow.Spec

variable {P : Platform} {b : Block} {now : ℕ} {D : Db} {ws : List Write} {r : BRes b}

/-- Every refund has an amount. -/
def Positive (D : Db) : Prop := ∀ refund ∈ D.refunds, 0 < refund.amountCents

theorem positive_step (h : Does P b now D ws r) (hp : Positive D) :
    Positive (store.applyAll D ws) := by
  intro refund hmem
  have hmap := map_refunds_applyAll (g := fun r : Refund => r.amountCents) (fun _ _ => rfl) ws D
  have hamount : refund.amountCents ∈ (store.applyAll D ws).refunds.map (·.amountCents) :=
    List.mem_map_of_mem hmem
  rw [hmap] at hamount
  rcases List.mem_append.mp hamount with hold | hnew
  · obtain ⟨refund₀, hmem₀, he⟩ := List.mem_map.mp hold
    rw [← he]
    exact hp refund₀ hmem₀
  · rcases newRefunds_of_does h with hnone | ⟨refund₀, row, hone, -, -, hpos, -⟩
    · simp [hnone] at hnew
    · rw [hone, List.map_singleton, List.mem_singleton] at hnew
      rw [hnew]
      exact hpos

theorem refunded_exact (hi : Inv D) (hc : Covered D) (hpos : Positive D) {p : Payment}
    (hmem : p ∈ D.payments) (hs : p.status = .refunded) :
    D.refundTotal [.succeeded] p.id = p.amountCents ∧
      ∀ refund ∈ D.refunds, refund.paymentId = p.id →
        refund.status ≠ .created ∧ refund.status ≠ .processing := by
  have hfull := hi.refunded_total p hmem hs
  have hbound := hc p.id p (find?_key_of_mem hi.payment_ids hmem)
  have hsel : ∀ r : Refund, (r.paymentId = p.id && [RefundStatus.succeeded].contains r.status) = true →
      (r.paymentId = p.id && reservedStatuses.contains r.status) = true := by
    intro r hr
    simp only [Bool.and_eq_true, List.contains_iff_mem, List.mem_singleton] at hr ⊢
    refine ⟨hr.1, ?_⟩
    simp [reservedStatuses, hr.2]
  have hle : D.refundTotal [.succeeded] p.id ≤ D.refundTotal reservedStatuses p.id :=
    total_mono hsel D.refunds
  refine ⟨by omega, fun refund hr hpay => ?_⟩
  have hstatus : ¬ (refund.status = .created ∨ refund.status = .processing) := by
    intro hopen
    have hadd : D.refundTotal [.succeeded] p.id + refund.amountCents ≤
        D.refundTotal reservedStatuses p.id := by
      refine total_add_le hsel ?_ ?_ hr
      · rcases hopen with h | h <;> simp [h]
      · rcases hopen with h | h <;> simp [hpay, h, reservedStatuses]
    have := hpos refund hr
    omega
  exact ⟨fun h => hstatus (Or.inl h), fun h => hstatus (Or.inr h)⟩

theorem PaymentMove.refunded {p : Uuid} {st st' : PaymentStatus} (h : PaymentMove D p b st st')
    (hs : st = .refunded) : st' = .refunded := by
  cases h with
  | transition hv hm => simp [hs, validTransitions] at hv
  | webhook ht => simp at hs
  | reconcile ht => simp at hs
  | refund => simp at hs
  | restore hq hpay => simp at hs
  | complete hq hpay hrow hle hfull =>
    unfold statusAfterRefund
    exact if_pos (hfull hs)

theorem refunded_step (hreq : Requires b D) (h : Does P b now D ws r) {p : Uuid}
    (hp : ∃ row, D.payment? p = some row ∧ row.status = .refunded) :
    ∃ row, (store.applyAll D ws).payment? p = some row ∧ row.status = .refunded := by
  obtain ⟨row, hp, hs⟩ := hp
  have hstep := payment_step hreq h p
  rw [hp] at hstep
  generalize (store.applyAll D ws).payment? p = after at hstep
  cases hstep with
  | keep he => exact ⟨_, rfl, he.trans hs⟩
  | move hm => exact ⟨_, rfl, PaymentMove.refunded hm hs⟩

/-- **`REFUNDED` is exact and final.** In every reachable state the refunds of a payment that is
`REFUNDED` and that have succeeded add up to exactly its amount, and no refund of it is `CREATED` or
`PROCESSING`; from there on it is `REFUNDED` in every state. -/
theorem refunded_exact_final {s : State P} (h : Reachable P s) {p : Payment}
    (hmem : p ∈ s.db.payments) (hs : p.status = .refunded) :
    (s.db.refundTotal [.succeeded] p.id = p.amountCents ∧
      ∀ refund ∈ s.db.refunds, refund.paymentId = p.id →
        refund.status ≠ .created ∧ refund.status ≠ .processing) ∧
    ∀ s', Machine.Reachable (payflow P) s s' →
      ∃ row, s'.db.payment? p.id = some row ∧ row.status = .refunded := by
  have hi := inv_of_reachable h
  have hc : Covered s.db := db_invariant (by simp [Covered, Db.payment?, Db.empty])
    (fun hi hreq h _ hc => covered_step hi hreq h hc) (reachableWhen_true h)
  have hpos : Positive s.db := db_invariant (by simp [Positive, Db.empty])
    (fun _ _ h _ hp => positive_step h hp) (reachableWhen_true h)
  refine ⟨refunded_exact hi hc hpos hmem hs, fun s' h' => ?_⟩
  have htrue : Machine.ReachableBy (payflow P)
      (Machine.OnEvents (payflow P) (OnCommits fun _ _ => True)) s s' :=
    h'.imp fun _ _ _ _ _ _ _ _ => trivial
  exact db_invariant_from (good_of_reachable h)
    ⟨p, find?_key_of_mem hi.payment_ids hmem, hs⟩ (fun _ hreq h _ hp =>
      refunded_step hreq h hp) htrue

/-- The refund of a whole payment, up to its end. -/
def fullRefund : List Act :=
  createRefundScript 2 wholeRefund 10 ++ startRefundScript 3 1 14 ++ succeedRefundScript 3 16 ++
    completeScript 3 19

/-- A payment that has been refunded in one refund. -/
theorem refunded_exact_final_fullRefund : ∃ (s : State examplePlatform) (p : Payment),
    p ∈ s.db.payments ∧ p.status = .refunded ∧
    (s.db.refundTotal [.succeeded] p.id = p.amountCents ∧
      ∀ refund ∈ s.db.refunds, refund.paymentId = p.id →
        refund.status ≠ .created ∧ refund.status ≠ .processing) ∧
    ∀ s', Machine.Reachable (payflow examplePlatform) s s' →
      ∃ row, s'.db.payment? p.id = some row ∧ row.status = .refunded := by
  have h : ((payflow examplePlatform).run (init _) (onePayment ++ fullRefund)).map
      (fun s => s.db.payments.map (·.status)) = some [.refunded] := by decide +kernel
  obtain ⟨s, hs, h⟩ := Option.map_eq_some_iff.mp h
  obtain ⟨p, hmem, hst⟩ : ∃ p ∈ s.db.payments, p.status = .refunded :=
    List.mem_map.mp (h ▸ List.mem_singleton_self _)
  exact ⟨s, p, hmem, hst, refunded_exact_final (.run hs) hmem hst⟩

end Payflow.Safety
