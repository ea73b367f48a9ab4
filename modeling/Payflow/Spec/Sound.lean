import Payflow.Spec.RefundSpecs

/-! # Sound writes

The writes of every transaction are sound, so they keep the database well formed and only move its
rows forward. -/

namespace Payflow.Spec

open Payflow.Lib Payflow.Model

/-- The write fits the database: a new row has a new id and a new key, a payment becomes `REFUNDED`
only if it is refunded in full, and the status of a refund moves forward. -/
def Sound (D : Db) : Write → Prop
  | .insertPayment row => D.payment? row.id = none ∧
      D.paymentByKey? row.merchantId row.idempotencyKey = none ∧ row.status = .created
  | .updatePayment id cols => ∃ row, D.payment? id = some row ∧
      (cols.status = .refunded → row.amountCents ≤ D.refundTotal [.succeeded] id)
  | .insertRefund row => D.refund? row.id = none ∧
      D.refundByKey? row.merchantId row.idempotencyKey = none ∧ (D.payment? row.paymentId).isSome
  | .updateRefund id cols => ∃ row, D.refund? id = some row ∧ RefundStatus.Le row.status cols.status
  | _ => True

/-- Every write fits the database that the ones before it have left. -/
def SoundAll (D : Db) : List Write → Prop
  | [] => True
  | w :: ws => Sound D w ∧ SoundAll (D.apply w) ws

theorem not_mem_map_of_find? {α κ : Type} [DecidableEq κ] {key : α → κ} {l : List α} {k : κ}
    (h : l.find? (fun a => key a = k) = none) : k ∉ l.map key := by
  rw [List.mem_map]
  rintro ⟨a, ha, hk⟩
  simpa [hk] using List.find?_eq_none.mp h a ha

theorem nodup_map_append {α κ : Type} {key : α → κ} {l : List α} {a : α}
    (hn : (l.map key).Nodup) (h : key a ∉ l.map key) : ((l ++ [a]).map key).Nodup := by
  rw [List.map_append, List.map_cons, List.map_nil, List.nodup_append']
  exact ⟨hn, by simp, by simpa using h⟩

theorem le_apply {D : Db} {w : Write} (hi : Inv D) (hs : Sound D w) : Grown D (D.apply w) := by
  cases w with
  | insertPayment row => exact ⟨.append .refl _ _, .refl .refl _⟩
  | updatePayment id cols => exact ⟨.setWhere .refl fun a _ _ => ⟨cols, rfl⟩, .refl .refl _⟩
  | insertRefund row => exact ⟨.refl .refl _, .append .refl _ _⟩
  | updateRefund id cols =>
    obtain ⟨row, hrow, hle⟩ := hs
    refine ⟨.refl .refl _, .setWhere .refl fun a ha hid => ⟨cols, rfl, ?_⟩⟩
    have hid : a.id = id := by simpa using hid
    obtain rfl : row = a := eq_of_key hi.refund_ids (find?_key hrow).1 ha
      ((find?_key hrow).2.trans hid.symm)
    exact hle
  | _ => exact ⟨.refl .refl _, .refl .refl _⟩

theorem inv_apply {D : Db} {w : Write} (hi : Inv D) (hs : Sound D w) : Inv (D.apply w) := by
  have hle := le_apply hi hs
  cases w with
  | insertPayment row =>
    obtain ⟨hid, hkey, hstatus⟩ := hs
    refine ⟨nodup_map_append hi.payment_ids (not_mem_map_of_find? hid),
      nodup_map_append hi.payment_keys (not_mem_map_of_find? hkey), hi.refund_ids, hi.refund_keys,
      fun r hr => ?_, fun p hp hrefunded => ?_⟩
    · obtain ⟨p, hp, he⟩ := hi.refund_payment r hr
      exact ⟨p, List.mem_append_left _ hp, he⟩
    · rcases List.mem_append.mp hp with hp | hp
      · exact hi.refunded_total p hp hrefunded
      · rw [List.mem_singleton.mp hp, hstatus] at hrefunded
        simp at hrefunded
  | updatePayment id cols =>
    obtain ⟨row, hrow, htotal⟩ := hs
    refine ⟨?_, ?_, hi.refund_ids, hi.refund_keys, fun r hr => ?_, fun p hp hrefunded => ?_⟩
    · exact nodup_setWhere hi.payment_ids fun _ => rfl
    · exact nodup_setWhere hi.payment_keys fun _ => rfl
    · obtain ⟨p, hp, he⟩ := hi.refund_payment r hr
      obtain ⟨q, hq, cols', rfl⟩ := hle.payments.exists_mem hp
      exact ⟨_, hq, he⟩
    · obtain ⟨a, ha, rfl⟩ := mem_setWhere.mp hp
      by_cases hid : a.id = id
      · simp only [hid, decide_true, if_true] at hrefunded ⊢
        obtain rfl : row = a := eq_of_key hi.payment_ids (find?_key hrow).1 ha
          ((find?_key hrow).2.trans hid.symm)
        exact htotal hrefunded
      · simp only [hid, decide_false, Bool.false_eq_true, if_false] at hrefunded ⊢
        exact hi.refunded_total a ha hrefunded
  | insertRefund row =>
    obtain ⟨hid, hkey, hp⟩ := hs
    refine ⟨hi.payment_ids, hi.payment_keys, nodup_map_append hi.refund_ids (not_mem_map_of_find? hid),
      nodup_map_append hi.refund_keys (not_mem_map_of_find? hkey), fun r hr => ?_,
      fun p hp hrefunded => ?_⟩
    · rcases List.mem_append.mp hr with hr | hr
      · exact hi.refund_payment r hr
      · obtain ⟨p, hp⟩ := Option.isSome_iff_exists.mp hp
        exact ⟨p, (find?_key hp).1, (find?_key hp).2.trans (by rw [List.mem_singleton.mp hr])⟩
    · exact Nat.le_trans (hi.refunded_total p hp hrefunded) (hle.succeeded_total p.id)
  | updateRefund id cols =>
    refine ⟨hi.payment_ids, hi.payment_keys, ?_, ?_, fun r hr => ?_, fun p hp hrefunded => ?_⟩
    · exact nodup_setWhere hi.refund_ids fun _ => rfl
    · exact nodup_setWhere hi.refund_keys fun _ => rfl
    · obtain ⟨a, ha, rfl⟩ := mem_setWhere.mp hr
      obtain ⟨p, hp, he⟩ := hi.refund_payment a ha
      refine ⟨p, hp, he.trans ?_⟩
      split_ifs <;> rfl
    · exact Nat.le_trans (hi.refunded_total p hp hrefunded) (hle.succeeded_total p.id)
  | _ => exact ⟨hi.payment_ids, hi.payment_keys, hi.refund_ids, hi.refund_keys, hi.refund_payment,
      hi.refunded_total⟩

/-- Sound writes keep the database well formed and move it forward. -/
theorem keep_of_sound : ∀ {ws : List Write} {D : Db}, Inv D → SoundAll D ws →
    Inv (store.applyAll D ws) ∧ Grown D (store.applyAll D ws)
  | [], D, hi, _ => ⟨hi, .refl D⟩
  | w :: ws, D, hi, hs => by
    obtain ⟨hinv, hle⟩ := keep_of_sound (inv_apply hi hs.1) hs.2
    exact ⟨hinv, (le_apply hi hs.1).trans hle⟩

/-- An update of a payment with a status other than `REFUNDED`, and what comes after it. -/
theorem soundAll_update {D : Db} {id : Uuid} {row : Payment} {cols : PaymentCols} {ws : List Write}
    (hrow : D.payment? id = some row) (hs : cols.status ≠ .refunded)
    (hws : SoundAll (D.apply (.updatePayment id cols)) ws) :
    SoundAll D (.updatePayment id cols :: ws) :=
  ⟨⟨row, hrow, fun h => absurd h hs⟩, hws⟩

theorem payment_id {D : Db} {id : Uuid} {row : Payment} (h : D.payment? id = some row) :
    row.id = id := (find?_key h).2

theorem refund_id {D : Db} {id : Uuid} {row : Refund} (h : D.refund? id = some row) :
    row.id = id := (find?_key h).2

/-- **The writes of every transaction are sound.** -/
theorem sound_of_does {P : Platform} {b : Block} {now : ℕ} {D : Db} {ws : List Write} {r : BRes b}
    (hreq : Requires b D) (h : Does P b now D ws r) : SoundAll D ws := by
  cases b with
  | getExistingPayment m k => rw [h.1]; trivial
  | getPayment p => rw [h.1]; trivial
  | reconcileSelect => rw [h.1]; trivial
  | getRefund q => rw [h.1]; trivial
  | selectProviderPaymentId p => rw [h.1]; trivial
  | createIdempotentPayment m k hash u a c =>
    rcases h with ⟨id, event, c', hkey, hid, -, -, rfl, rfl⟩ | ⟨row, -, -, -, rfl⟩
    · exact ⟨⟨hid, hkey, rfl⟩, trivial, trivial⟩
    · trivial
  | recordTransition p type new provider failure =>
    obtain ⟨row, hrow, ⟨-, rfl⟩ | ⟨-, prov, fail, event, outbox, -, -, rfl⟩⟩ := h
    · trivial
    · have hnew : new ≠ .refunded := by
        rintro rfl
        simp [Requires, paymentMoves] at hreq
      exact soundAll_update (payment_id hrow ▸ hrow) hnew ⟨trivial, trivial, trivial⟩
  | recordAwaitingWebhook p provider =>
    obtain ⟨row, hrow, ⟨-, rfl⟩ | ⟨hs, prov, event, -, rfl⟩⟩ := h
    · trivial
    · exact soundAll_update hrow (by simp [hs]) ⟨trivial, trivial⟩
  | recordRetry p reason =>
    obtain ⟨row, hrow, ⟨-, rfl⟩ | ⟨hs, event, rfl⟩⟩ := h
    · trivial
    · exact soundAll_update hrow (by simp [hs]) ⟨trivial, trivial⟩
  | receiveProviderWebhook payload =>
    obtain ⟨eventId, -, rfl⟩ | ⟨w, eventId, field, p, row, status, -, -, -, -, -, hrow, -, h⟩ := h
    · trivial
    rcases h with ⟨-, -, rfl⟩ | ⟨-, -, provider, event, outbox, -, rfl⟩
    · exact ⟨trivial, trivial⟩
    · have hnew : webhookStatus status ≠ .refunded := by unfold webhookStatus; split <;> simp
      exact ⟨trivial, soundAll_update (payment_id hrow ▸ hrow) hnew ⟨trivial, trivial, trivial⟩⟩
  | reconcileOne p status =>
    obtain ⟨-, rfl⟩ | ⟨-, row, event, outbox, hrow, -, rfl⟩ := h
    · trivial
    · have hnew : status ≠ .refunded := by
        rintro rfl
        simp [Requires] at hreq
      exact soundAll_update (payment_id hrow ▸ hrow) hnew ⟨trivial, trivial, trivial⟩
  | createRefund p m k a =>
    obtain ⟨row, id, c, e₁, e₂, e₃, hkey, hid, hrow, -, -, -, -, -, -, rfl, rfl⟩ |
      ⟨refund, -, -, rfl⟩ := h
    · have hrow' : D.payment? row.id = some row := payment_id hrow ▸ hrow
      refine ⟨⟨hid, hkey, ?_⟩, soundAll_update hrow' (by simp) ⟨trivial, trivial, trivial, trivial⟩⟩
      show (D.payment? p).isSome
      rw [hrow]
      rfl
    · trivial
  | recordRefundTransition q type new provider failure =>
    obtain ⟨row, hrow, ⟨-, rfl⟩ | ⟨hv, prov, event, outbox, rfl⟩⟩ := h
    · trivial
    · refine ⟨⟨row, refund_id hrow ▸ hrow, ?_⟩, trivial, trivial, trivial⟩
      show RefundStatus.Le row.status new
      unfold RefundStatus.Le
      cases hs : row.status <;> simp_all [validRefundTransitions]
      rcases hv with rfl | rfl <;> simp
  | recordRefundRetry q reason =>
    obtain rfl | ⟨row, event, hrow, hs, rfl⟩ := h
    · trivial
    · exact ⟨⟨row, hrow, .refl _⟩, trivial, trivial⟩
  | completeSuccessfulRefund q =>
    obtain ⟨refund, row, total, event, outbox, -, hrow, htotal, -, rfl⟩ := h
    refine ⟨⟨row, payment_id hrow ▸ hrow, fun hs => ?_⟩, trivial, trivial, trivial⟩
    have hs : statusAfterRefund total row.amountCents = .refunded := hs
    unfold statusAfterRefund at hs
    split_ifs at hs with hge
    exact Nat.le_trans hge htotal
  | restorePaymentAfterFailedRefund q =>
    obtain ⟨rfl, -⟩ | ⟨refund, row, -, hrow, -, rfl⟩ := h
    · trivial
    · exact soundAll_update (payment_id hrow ▸ hrow) (by simp) trivial

end Payflow.Spec
