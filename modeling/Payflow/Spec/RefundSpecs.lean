import Payflow.Spec.PaymentSpecs

/-! # The transactions on refunds do what the contract says -/

namespace Payflow.Spec

open Payflow.Lib Payflow.Model

variable {now : ℕ} {D : Db}

/-! ### refunds.py -/

/-- A new refund of a locked payment: the payment stays as it is, and its reserved amount does not
grow. -/
theorem meets_createRefund (p : Uuid) (m k : String) (a : ℕ) :
    Meets store rely (fun now D ws r => CreateRefundCommit now D ws p m k a r) NoProviderError now
      (createRefundTxn p m k a) [] [] D := by
  refine meets_selectRefundByKey stable_true trivial fun D₁ hi _ => ?_
  simp only [Store.applyAll_nil]
  cases hkey : D₁.refundByKey? m k with
  | some existing =>
    exact meets_once (fun D₀ => D₀.refundByKey? m k = some existing) hi hkey
      fun _ ho => Or.inr ⟨existing, ho, rfl, rfl⟩
  | none =>
    refine meets_selectMerchantPaymentForUpdate stable_true trivial (fun _ _ _ => rfl) ?_
    intro D₂ row _ _ hrow hm
    have hrowId : row.id = p := (find?_key hrow).2
    have hst : rely.Stable [.payment p] fun D => D.payment? p = some row :=
      stable_payment (by simp)
    refine Meets.ite (fun _ => rfl) fun hs => Meets.ite (fun _ => rfl) fun hprov => ?_
    refine meets_sumRefunds hst hrow fun D₃ _ hrow => ?_
    refine Meets.ite (fun _ => rfl) fun hle => ?_
    have hsum : D₃.refundTotal reservedStatuses p + a ≤ row.amountCents := by
      have : ¬ (a : ℤ) > row.amountCents - D₃.refundTotal reservedStatuses p := hle
      omega
    have hst₂ : rely.Stable [.payment p] fun D => D.payment? p = some row ∧
        D.refundTotal reservedStatuses p ≤ D₃.refundTotal reservedStatuses p :=
      hst.and (stable_reserved (by simp))
    refine meets_uuid4 hst₂ ⟨hrow, Nat.le_refl _⟩ fun D₄ id _ hK => ?_
    refine meets_insertRefund hst₂ hK (fun _ _ he => isProviderError_of_isDatabaseError he) ?_
    intro D₅ c _ hK hkey hid ha hc
    have hst₃ : rely.Stable [.payment p, .refundKey m k, .newId id, .refund id, .payment p]
        fun D => (D.payment? p = some row ∧
          D.refundTotal reservedStatuses p ≤ D₃.refundTotal reservedStatuses p) ∧
          ((D.refundByKey? m k).isSome = false ∧ D.refund? id = none) :=
      (hst₂.mono (by simp)).and
        ((stable_no_refundKey (by simp)).and (stable_refund (by simp)))
    have hK := And.intro hK (And.intro hkey hid)
    refine meets_updatePayment hst₃ hK (fun _ h => h.1.1) fun D₆ _ hK => ?_
    refine meets_insertRefundEvent hst₃ hK fun D₇ e₁ _ hK => ?_
    refine meets_insertPaymentEvent hst₃ hK fun D₈ e₂ _ hK => ?_
    refine meets_insertOutboxEvent hst₃ hK fun D₉ e₃ _ hK => ?_
    refine Meets.pure hst₃ hK fun D' _ hK => Or.inl ⟨row, id, c, e₁, e₂, e₃, by simpa using hK.2.1,
      hK.2.2, hK.1.1, hm, not_not.mp hs, hprov, ?_, ha, hc, rfl, ?_⟩
    · exact Nat.le_trans (Nat.add_le_add_right hK.1.2 a) hsum
    · simp [createRefundWrites, newRefund, hrowId]

/-! ### refund_service.py -/

theorem isProviderError_varcharOption {s : Option String} {e : Exn}
    (h : varcharOption s = .error e) :
    isProviderError e = false := by
  unfold varcharOption at h
  split at h
  · split at h
    · simp at h
    · rename_i e' he
      obtain ⟨message, rfl⟩ := varchar_error he
      obtain rfl := Except.error.inj h
      rfl
  · simp at h

theorem meets_recordRefundTransition (q : Uuid) (type : EventType) (new : RefundStatus)
    (provider : Json) (failure : Option String) :
    Meets store rely (fun now D ws _ => RecordRefundTransitionCommit now D ws q type new failure)
      NoProviderError now (recordRefundTransition P q type new provider failure) [] [] D := by
  refine meets_selectRefundForUpdate stable_true trivial (fun _ _ _ _ => rfl) ?_
  intro D₁ row hi _ hrow
  have hst : rely.Stable [.refund q] fun D => D.refund? q = some row := stable_refund (by simp)
  have hid : row.id = q := (find?_key hrow).2
  refine Meets.ite (fun hv => ?_) fun hv => ?_
  · refine Meets.ite (fun hs => ?_) fun hs => rfl
    exact Meets.pure hst hrow fun D₂ _ hrow => ⟨row, hrow, Or.inl ⟨hs, rfl⟩⟩
  · refine Meets.ofExcept (fun e he => isProviderError_textParam he) fun provider' _ => ?_
    refine Meets.ofExcept (fun e he => isProviderError_varcharOption he) fun provider'' _ => ?_
    refine Meets.ofExcept (fun e he => isProviderError_textParam he) fun failure' hfail => ?_
    rw [eq_of_textParam_option hfail]
    refine meets_updateRefund hst hrow (fun D₂ h => h) fun D₂ _ hrow => ?_
    refine meets_insertRefundEvent hst hrow fun D₃ event _ hrow => ?_
    refine meets_insertOutboxEvent (k := .pure) hst hrow fun D₄ outbox _ hrow => ?_
    refine Meets.pure hst hrow fun D₅ _ hrow => ⟨row, hrow, Or.inr ⟨not_not.mp hv, provider'',
      event, outbox, ?_⟩⟩
    simp [refundTransitionWrites, hid]

theorem meets_recordRefundRetry (q : Uuid) (reason : String) :
    Meets store rely (fun now D ws _ => RecordRefundRetryCommit now D ws q reason)
      NoProviderError now (recordRefundRetry P q reason) [] [] D := by
  refine Meets.ofExcept (fun e he => isProviderError_textParam he) fun failure hfail => ?_
  refine meets_updateRefundIf stable_true trivial ?_ ?_
  · intro D₁ hi _
    exact meets_once (fun _ => True) hi trivial fun _ _ => Or.inl rfl
  intro D₁ row _ _ hrow hs
  have hst : rely.Stable [.refund q] fun D => D.refund? q = some row := stable_refund (by simp)
  refine meets_insertRefundEvent (k := .pure) hst hrow fun D₂ event _ hrow => ?_
  refine Meets.pure hst hrow fun D₃ _ hrow => Or.inr ⟨row, event, hrow, hs, ?_⟩
  simp [eq_of_textParam_str hfail]

theorem payment_of_refund {q : Uuid} {refund : Refund} (hi : Inv D)
    (hq : D.refund? q = some refund) : (D.payment? refund.paymentId).isSome = true := by
  obtain ⟨row, hrow, hid⟩ := hi.refund_payment refund (find?_key hq).1
  rw [← hid]
  exact Option.isSome_iff_exists.mpr ⟨row, find?_key_of_mem hi.payment_ids hrow⟩

theorem meets_completeSuccessfulRefund (q : Uuid) {refund : Refund}
    (hq : D.refund? q = some refund) :
    Meets store rely (fun now D ws _ => CompleteSuccessfulRefundCommit now D ws q)
      (fun _ _ => False) now (completeSuccessfulRefund q) [] [] D := by
  have hst : ∀ ls, rely.Stable ls fun D =>
      ∃ r, D.refund? q = some r ∧ r.paymentId = refund.paymentId := fun _ => stable_refund_payment
  refine meets_selectRefund (hst _) ⟨refund, hq, rfl⟩ fun D₁ _ ⟨refund₁, hq₁, hp₁⟩ => ?_
  rw [show (store.applyAll D₁ []).refund? q = some refund₁ from hq₁]
  refine meets_selectPaymentForUpdate (hst _) ⟨refund₁, hq₁, hp₁⟩ ?_ ?_
  · rintro D₂ hi ⟨refund₂, hq₂, hp₂⟩ hnone
    have hsome := payment_of_refund hi hq₂
    rw [hp₂, ← hp₁, show D₂.payment? refund₁.paymentId = none from hnone] at hsome
    simp at hsome
  intro D₂ row _ hq hrow
  rw [hp₁] at hrow ⊢
  have hrowId : row.id = refund.paymentId := (find?_key hrow).2
  have hst₂ : rely.Stable [.payment refund.paymentId] fun D =>
      (∃ r, D.refund? q = some r ∧ r.paymentId = refund.paymentId) ∧
        D.payment? refund.paymentId = some row := (hst _).and (stable_payment (by simp))
  refine meets_sumRefunds hst₂ ⟨hq, hrow⟩ fun D₃ hi hK => ?_
  have hst₃ := hst₂.and (stable_succeeded (p := row.id) (n := D₃.refundTotal [.succeeded] row.id))
  have hK := And.intro hK (Nat.le_refl (D₃.refundTotal [.succeeded] row.id))
  have hfull : row.status = .refunded → row.amountCents ≤ D₃.refundTotal [.succeeded] row.id :=
    hi.refunded_total row (find?_key hK.1.2).1
  refine meets_updatePayment hst₃ hK (fun D h => hrowId ▸ h.1.2) fun D₄ _ hK => ?_
  refine meets_insertPaymentEvent hst₃ hK fun D₅ event _ hK => ?_
  refine meets_insertOutboxEvent (k := .pure) hst₃ hK fun D₆ outbox _ hK => ?_
  refine Meets.pure hst₃ hK fun D' _ hK => ?_
  obtain ⟨⟨⟨r, hr, hp⟩, hrow⟩, hle⟩ := hK
  exact ⟨r, row, _, event, outbox, hr, hp ▸ hrow, hle, hfull, rfl⟩

theorem meets_restorePaymentAfterFailedRefund (q : Uuid) {refund : Refund}
    (hq : D.refund? q = some refund) :
    Meets store rely (fun now D ws _ => RestorePaymentAfterFailedRefundCommit now D ws q)
      (fun _ _ => False) now (restorePaymentAfterFailedRefund q) [] [] D := by
  have hst : ∀ ls, rely.Stable ls fun D =>
      ∃ r, D.refund? q = some r ∧ r.paymentId = refund.paymentId := fun _ => stable_refund_payment
  refine meets_selectRefund (hst _) ⟨refund, hq, rfl⟩ fun D₁ _ ⟨refund₁, hq₁, hp₁⟩ => ?_
  rw [show (store.applyAll D₁ []).refund? q = some refund₁ from hq₁]
  refine meets_updatePaymentIf (k := .pure) (hst _) ⟨refund₁, hq₁, hp₁⟩ ?_ ?_
  · intro D₂ hi ⟨r, hr, hp⟩ hne
    refine meets_once (fun D₀ => ∃ refund, D₀.refund? q = some refund ∧ ∀ row,
      D₀.payment? refund.paymentId = some row → row.status ≠ .refundPending) hi ?_
      fun D' ho => Or.inl ⟨rfl, ho⟩
    exact ⟨r, hr, fun row hrow => hne row (hp₁.trans hp.symm ▸ hrow)⟩
  · intro D₂ row _ hq hrow hs
    rw [hp₁] at hrow ⊢
    have hrowId : row.id = refund.paymentId := (find?_key hrow).2
    have hst₂ : rely.Stable [.payment refund.paymentId] fun D =>
        (∃ r, D.refund? q = some r ∧ r.paymentId = refund.paymentId) ∧
          D.payment? refund.paymentId = some row := (hst _).and (stable_payment (by simp))
    refine Meets.pure hst₂ ⟨hq, hrow⟩ fun D' _ hK => ?_
    obtain ⟨⟨r, hr, hp⟩, hrow⟩ := hK
    exact Or.inr ⟨r, row, hr, hp ▸ hrow, hs, by simp [hrowId]⟩

end Payflow.Spec
