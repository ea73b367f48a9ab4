import Payflow.Spec.Runs

/-! # No payment is refunded beyond its amount

The refunds of a payment that are `CREATED`, `PROCESSING` or `SUCCEEDED` never add up to more than
the payment. Only a new refund adds to the sum, and `create_refund` adds one only within what is
left; a refund that moves on can leave the sum but not enter it (`reserved_applyAll`). -/

namespace Payflow.Safety

open Payflow.Lib Payflow.Model Payflow.Spec

/-- A write adds to the reserved amount only what a new refund brings. -/
theorem reserved_apply {D : Db} {w : Write} (hi : Inv D) (hs : Sound D w) (p : Uuid) :
    (D.apply w).refundTotal reservedStatuses p ≤
      D.refundTotal reservedStatuses p + total (reserved p) (·.amountCents)
        (newRefund? w).toList := by
  cases w with
  | insertRefund row => exact Nat.le_of_eq (total_append _ _)
  | updateRefund id cols =>
    have hg := (le_apply hi hs).refunds
    have hlen : D.refunds.length = (D.apply (.updateRefund id cols)).refunds.length :=
      (List.length_map _).symm
    exact total_le_of_forall₂ (fun a b h => reserved_refundLe h) (hg.forall₂ hlen)
  | _ => exact Nat.le_refl _

theorem reserved_applyAll (p : Uuid) : ∀ {ws : List Write} {D : Db}, Inv D → SoundAll D ws →
    (store.applyAll D ws).refundTotal reservedStatuses p ≤ D.refundTotal reservedStatuses p +
      total (reserved p) (·.amountCents) (ws.filterMap newRefund?)
  | [], _, _, _ => Nat.le_refl _
  | w :: ws, D, hi, hs => by
    have hw := reserved_apply hi hs.1 p
    have hws := reserved_applyAll p (inv_apply hi hs.1) hs.2
    have happ : total (reserved p) (·.amountCents) ((w :: ws).filterMap newRefund?) =
        total (reserved p) (·.amountCents) (newRefund? w).toList +
          total (reserved p) (·.amountCents) (ws.filterMap newRefund?) := by
      rw [← total_append]
      congr 1
      cases h : newRefund? w <;> simp [h]
    show (store.applyAll (D.apply w) ws).refundTotal reservedStatuses p ≤ _
    omega

/-- The bound, for the payments by id. -/
def Covered (D : Db) : Prop :=
  ∀ p row, D.payment? p = some row → D.refundTotal reservedStatuses p ≤ row.amountCents

theorem refundTotal_of_no_payment {D : Db} (hi : Inv D) {p : Uuid} (hp : D.payment? p = none)
    (statuses : List RefundStatus) : D.refundTotal statuses p = 0 := by
  unfold Db.refundTotal total
  rw [List.filter_eq_nil_iff.mpr]
  · rfl
  · intro r hr hsel
    obtain ⟨row, hrow, hid⟩ := hi.refund_payment r hr
    simp only [Bool.and_eq_true, decide_eq_true_eq] at hsel
    have := List.find?_eq_none.mp hp row hrow
    simp [hid, hsel.1] at this

theorem covered_step {P : Platform} {b : Block} {now : ℕ} {D : Db} {ws : List Write} {r : BRes b}
    (hi : Inv D) (hreq : Requires b D) (h : Does P b now D ws r) (hc : Covered D) :
    Covered (store.applyAll D ws) := by
  intro p row' hp'
  have hsum := reserved_applyAll p hi (sound_of_does hreq h)
  have hle := (keep_of_sound hi (sound_of_does hreq h)).2
  cases hp : D.payment? p with
  | none =>
    -- a payment that is new has no refunds, and its transaction makes none
    have hzero := refundTotal_of_no_payment hi hp reservedStatuses
    rcases newRefunds_of_does h with hnew | ⟨refund, row, hnew, hrow, -⟩
    · rw [hnew, hzero] at hsum
      exact Nat.le_trans hsum (Nat.zero_le _)
    · have hne : ¬ refund.paymentId = p := fun he => by simp [he, hp] at hrow
      have hzero' : total (reserved p) (·.amountCents) [refund] = 0 := by
        simp [total, reserved, hne]
      rw [hnew, hzero, hzero'] at hsum
      exact Nat.le_trans hsum (Nat.zero_le _)
  | some row =>
    obtain ⟨row₁, hp₁, cols, rfl⟩ := hle.payment hp
    obtain rfl := Option.some.inj (hp₁.symm.trans hp')
    have hbound := hc p row hp
    show _ ≤ row.amountCents
    rcases newRefunds_of_does h with hnew | ⟨refund, row₂, hnew, hrow, -, -, hroom⟩
    · rw [hnew] at hsum
      exact Nat.le_trans hsum hbound
    · rw [hnew] at hsum
      by_cases he : refund.paymentId = p
      · rw [he] at hrow hroom
        obtain rfl := Option.some.inj (hrow.symm.trans hp)
        have hone : total (reserved p) (·.amountCents) [refund] ≤ refund.amountCents := by
          rw [total_cons]
          split_ifs <;> simp
        omega
      · have hzero : total (reserved p) (·.amountCents) [refund] = 0 := by
          simp [total, reserved, he]
        omega

/-- **No over-refund.** In every reachable state the refunds of a payment that are `CREATED`,
`PROCESSING` or `SUCCEEDED` add up to at most its amount. -/
theorem refundTotal_le_amountCents {P : Platform} {s : State P} (h : Reachable P s) :
    ∀ p ∈ s.db.payments,
      s.db.refundTotal [.created, .processing, .succeeded] p.id ≤ p.amountCents := by
  intro p hp
  have hc : Covered s.db := db_invariant (by simp [Covered, Db.payment?, Db.empty])
    (fun hi hreq h _ hc => covered_step hi hreq h hc) (reachableWhen_true h)
  exact hc p.id p (find?_key_of_mem (inv_of_reachable h).payment_ids hp)

/-- The bound after a refund of a part of a payment. -/
theorem refundTotal_le_amountCents_oneRefund : ∃ s : State examplePlatform,
    s.db.refunds.map (·.amountCents) = [200] ∧ ∀ p ∈ s.db.payments,
      s.db.refundTotal [.created, .processing, .succeeded] p.id ≤ p.amountCents := by
  have h : ((payflow examplePlatform).run (init _) (onePayment ++ oneRefund)).map
      (fun s => s.db.refunds.map (·.amountCents)) = some [200] := by decide +kernel
  obtain ⟨s, hs, h⟩ := Option.map_eq_some_iff.mp h
  exact ⟨s, h, refundTotal_le_amountCents (.run hs)⟩

end Payflow.Safety
