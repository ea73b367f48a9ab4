import Payflow.Safety.Lifecycle

/-! # One refund in flight

`REFUND_PENDING` is the lock that a refund of a payment holds while it is `CREATED` or `PROCESSING`.
Nothing else takes it (`inFlight_step`), but three transactions give it up without looking whose
it is: `record_transition` to `SUCCEEDED`, `complete_successful_refund` and
`restore_payment_after_failed_refund`. -/

namespace Payflow.Safety

open Payflow.Lib Payflow.Model Payflow.Spec

variable {P : Platform} {b : Block} {now : ℕ} {D : Db} {ws : List Write} {r : BRes b}

/-- The refund is in flight. -/
def InFlight (refund : Refund) : Prop := refund.status = .created ∨ refund.status = .processing

instance (refund : Refund) : Decidable (InFlight refund) := by
  unfold InFlight
  infer_instance

/-- Every refund in flight holds its payment, alone. -/
def OneInFlight (D : Db) : Prop :=
  ∀ q refund, D.refund? q = some refund → InFlight refund →
    (∃ row, D.payment? refund.paymentId = some row ∧ row.status = .refundPending) ∧
    ∀ q' refund', D.refund? q' = some refund' → refund'.paymentId = refund.paymentId →
      InFlight refund' → q' = q

/-- The transactions that take a payment out of `REFUND_PENDING`. -/
def Releases (D : Db) (p : Uuid) : Block → Prop
  | .recordTransition p' _ new _ _ => p' = p ∧ new = .succeeded
  | .completeSuccessfulRefund q | .restorePaymentAfterFailedRefund q =>
    ∃ refund, D.refund? q = some refund ∧ refund.paymentId = p
  | _ => False

/-- No payment that is `REFUND_PENDING` is released while a refund of it is in flight. -/
def NoRelease (D : Db) (b : Block) : Prop :=
  ∀ p row, Releases D p b → D.payment? p = some row → row.status = .refundPending →
    ∀ q refund, D.refund? q = some refund → refund.paymentId = p → ¬ InFlight refund

theorem releases_of_move {p : Uuid} {st : PaymentStatus}
    (h : PaymentMove D p b .refundPending st) : Releases D p b := by
  generalize hs : PaymentStatus.refundPending = st₀ at h
  cases h with
  | transition hv hm =>
    refine ⟨rfl, ?_⟩
    subst hs
    simp only [validTransitions, List.mem_cons, List.not_mem_nil, or_false] at hv
    rcases hv with rfl | rfl
    · simp [paymentMoves] at hm
    · rfl
  | webhook _ => simp at hs
  | reconcile _ => simp at hs
  | refund => simp at hs
  | complete hq hp _ _ _ => exact ⟨_, hq, hp⟩
  | restore hq hp => exact ⟨_, hq, hp⟩

theorem RefundMove.inFlight {q : Uuid} {st st' : RefundStatus} (h : RefundMove q b st st') :
    st = .created ∨ st = .processing := by
  cases h with
  | transition hv _ => cases st <;> simp_all [validRefundTransitions]

/-- What a refund in flight was before a commit: in flight, or it is new and its payment has just
become `REFUND_PENDING`. -/
theorem inFlight_before (hi : Inv D) (hreq : Requires b D) (h : Does P b now D ws r) {q : Uuid}
    {refund' : Refund} (hq' : (store.applyAll D ws).refund? q = some refund')
    (hf : InFlight refund') :
    (∃ refund, D.refund? q = some refund ∧ refund.paymentId = refund'.paymentId ∧
      InFlight refund) ∨
    ((∃ row, D.payment? refund'.paymentId = some row ∧ row.status = .succeeded) ∧
      (∃ row', (store.applyAll D ws).payment? refund'.paymentId = some row' ∧
        row'.status = .refundPending) ∧
      ∃ p m k a, b = .createRefund p m k a ∧ refund'.merchantId = m ∧
        refund'.idempotencyKey = k) := by
  have hle := (keep_of_sound hi (sound_of_does hreq h)).2
  have hsame : ∀ refund, D.refund? q = some refund → refund.paymentId = refund'.paymentId := by
    intro refund hq
    obtain ⟨refund₁, hq₁, cols, rfl, -⟩ := hle.refund hq
    obtain rfl := Option.some.inj (hq₁.symm.trans hq')
    rfl
  have hstep := refund_step hreq h q
  rw [hq'] at hstep
  generalize hq : D.refund? q = before at hstep
  cases hstep with
  | new hb _ hp hs hp' hs' =>
    exact Or.inr ⟨⟨_, hp, hs⟩, ⟨_, hp', hs'⟩, _, _, _, _, hb, rfl, rfl⟩
  | keep he => exact Or.inl ⟨_, rfl, hsame _ hq, by unfold InFlight at *; rwa [← he]⟩
  | move hm => exact Or.inl ⟨_, rfl, hsame _ hq, RefundMove.inFlight hm⟩

/-- **A commit that meets the condition** keeps the refunds in flight alone. -/
theorem oneInFlight_step (hi : Inv D) (hreq : Requires b D) (h : Does P b now D ws r)
    (hC : NoRelease D b) (hone : OneInFlight D) : OneInFlight (store.applyAll D ws) := by
  have hinv := (keep_of_sound hi (sound_of_does hreq h)).1
  intro q refund' hq' hf'
  rcases inFlight_before hi hreq h hq' hf' with
    ⟨refund, hq, hpid, hf⟩ | ⟨⟨row, hp, hs⟩, hpending, p, m, k, a, hb, hm, hk⟩
  · obtain ⟨⟨row, hp, hs⟩, halone⟩ := hone q refund hq hf
    refine ⟨?_, fun q₂ refund₂ hq₂ hpid₂ hf₂ => ?_⟩
    · -- the payment cannot have left `REFUND_PENDING`
      have hstep := payment_step hreq h refund.paymentId
      rw [hp] at hstep
      rw [← hpid]
      generalize hp' : (store.applyAll D ws).payment? refund.paymentId = after at hstep
      cases hstep with
      | keep he => exact ⟨_, rfl, he.trans hs⟩
      | move hmove =>
        rw [hs] at hmove
        exact absurd hf (hC _ row (releases_of_move hmove) hp hs q refund hq rfl)
    · rcases inFlight_before hi hreq h hq₂ hf₂ with
        ⟨refund₁, hq₁, hpid₁, hf₁⟩ | ⟨⟨row₁, hp₁, hs₁⟩, -, -⟩
      · exact halone q₂ refund₁ hq₁ (hpid₁.trans (hpid₂.trans hpid.symm)) hf₁
      · rw [hpid₂, ← hpid, hp] at hp₁
        obtain rfl := Option.some.inj hp₁
        simp [hs] at hs₁
  · refine ⟨hpending, fun q₂ refund₂ hq₂ hpid₂ hf₂ => ?_⟩
    rcases inFlight_before hi hreq h hq₂ hf₂ with
      ⟨refund₁, hq₁, hpid₁, hf₁⟩ | ⟨-, -, p₂, m₂, k₂, a₂, hb₂, hm₂, hk₂⟩
    · obtain ⟨⟨row₁, hp₁, hs₁⟩, -⟩ := hone q₂ refund₁ hq₁ hf₁
      rw [hpid₁, hpid₂, hp] at hp₁
      obtain rfl := Option.some.inj hp₁
      simp [hs] at hs₁
    · -- both are new: they have the same key
      rw [hb] at hb₂
      obtain ⟨-, rfl, rfl, -⟩ := Block.createRefund.inj hb₂
      have heq : refund₂ = refund' := eq_of_key hinv.refund_keys (find?_key hq₂).1 (find?_key hq').1
        (by simp [hm, hk, hm₂, hk₂])
      rw [← refund_id hq₂, ← refund_id hq', heq]

/-- **One refund in flight.** In every run whose commits meet the condition, a refund that is
`CREATED` or `PROCESSING` has a payment that is `REFUND_PENDING`, and no other refund of that
payment is `CREATED` or `PROCESSING`. -/
theorem oneInFlight {s : State P} (h : ReachableWhen P NoRelease s) : OneInFlight s.db :=
  db_invariant (by simp [OneInFlight, Db.refund?, Db.empty])
    (fun hi hreq h hC hone => oneInFlight_step hi hreq h hC hone) h

/-- Enough for `NoRelease`: no completion, no restoration, and no transition from
`REFUND_PENDING`. -/
def quietCommit (D : Db) : Block → Bool
  | .recordTransition p _ _ _ _ => (D.payment? p).all fun row => row.status ≠ .refundPending
  | .completeSuccessfulRefund _ | .restorePaymentAfterFailedRefund _ => false
  | _ => true

theorem noRelease_of_quietCommit {D : Db} {b : Block} (h : quietCommit D b = true) :
    NoRelease D b := by
  intro p row hrel hp hs
  cases b with
  | recordTransition p' type new provider failure =>
    obtain ⟨rfl, -⟩ := hrel
    simp [quietCommit, hp, hs] at h
  | completeSuccessfulRefund q => simp [quietCommit] at h
  | restorePaymentAfterFailedRefund q => simp [quietCommit] at h
  | _ => exact hrel.elim

/-- A new refund of a payment that has succeeded. -/
theorem oneInFlight_newRefund : ∃ s : State examplePlatform,
    s.db.refunds.map (·.status) = [.created] ∧ OneInFlight s.db := by
  have h : ((payflow examplePlatform).runWhen (commitCheck quietCommit) (init _) (onePayment ++
      createRefundScript 2 partialRefund 10)).map
      (fun s => s.db.refunds.map (·.status)) = some [.created] := by decide +kernel
  obtain ⟨s, hs, h⟩ := Option.map_eq_some_iff.mp h
  exact ⟨s, h, oneInFlight (.runWhen
    (fun s a => onCommits_of_check fun D b => noRelease_of_quietCommit) .refl hs)⟩

/-- A refund is `PROCESSING` while its payment is `SUCCEEDED`: a late answer to the task of the
payment has taken the payment out of `REFUND_PENDING`. -/
theorem not_oneInFlight : ∃ s : State examplePlatform,
    Reachable examplePlatform s ∧ ¬ OneInFlight s.db := by
  have h : ((payflow examplePlatform).run (init _) staleDelivery).map (fun s =>
      ((s.db.refund? (exampleUuid 10)).map fun r => (r.status, r.paymentId),
        (s.db.payment? (exampleUuid 1)).map (·.status))) =
      some (some (.processing, exampleUuid 1), some .succeeded) := by decide +kernel
  obtain ⟨s, hs, h⟩ := Option.map_eq_some_iff.mp h
  simp only [Prod.mk.injEq, Option.map_eq_some_iff] at h
  obtain ⟨⟨refund, hq, hst, hpid⟩, row, hp, hst'⟩ := h
  refine ⟨s, .run hs, fun hone => ?_⟩
  obtain ⟨⟨row', hp', hs'⟩, -⟩ := hone _ refund hq (Or.inr hst)
  rw [hpid, hp] at hp'
  obtain rfl := Option.some.inj hp'
  simp [hst'] at hs'

end Payflow.Safety
