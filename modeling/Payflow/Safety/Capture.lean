import Payflow.Safety.Lifecycle
import Payflow.Spec.Ledger

/-! # A payment is captured once in the books

A payment comes from `PROCESSING` to `SUCCEEDED` by one of three transactions, and at most once: it
never is `PROCESSING` again (`settled_step`). Its ledger has one row of this capture if the payment
has succeeded, and none before (`Counted`). -/

namespace Payflow.Safety

open Payflow.Lib Payflow.Model Payflow.Spec

variable {P : Platform} {b : Block} {now : ℕ} {D : Db} {ws : List Write} {r : BRes b}

/-- The event reports that a payment came from `PROCESSING` to `SUCCEEDED`. -/
def captures (e : PaymentEvent) : Bool :=
  e.previousStatus = some .processing ∧ e.newStatus = .succeeded

/-- The transaction records an answer of the provider, a webhook, or the result of a lookup. -/
def ConfirmsPayment (p : Uuid) : Block → Prop
  | .recordTransition p' _ .succeeded _ _ => p' = p
  | .receiveProviderWebhook _ => True
  | .reconcileOne p' .succeeded => p' = p
  | _ => False

/-- The step captures the payment. -/
def CapturesPayment (p : Uuid) (D D' : Db) : Prop :=
  ∃ row row', D.payment? p = some row ∧ row.status = .processing ∧
    D'.payment? p = some row' ∧ row'.status = .succeeded

theorem capture_of_move (hr : RefundsSettled D) {p : Uuid} {st st' : PaymentStatus}
    (h : PaymentMove D p b st st') (hs : st ∉ settled) (hs' : st' ∈ settled) :
    st = .processing ∧ st' = .succeeded ∧ ConfirmsPayment p b := by
  cases h with
  | transition hv hm =>
    cases st <;> cases st' <;>
      simp_all [settled, validTransitions, paymentMoves, ConfirmsPayment]
  | webhook ht => rcases ht with rfl | rfl <;> simp_all [settled, ConfirmsPayment]
  | reconcile ht => rcases ht with rfl | rfl <;> simp_all [settled, ConfirmsPayment]
  | refund => simp [settled] at hs
  | restore => simp [settled] at hs
  | complete hq hp hrow _ _ =>
    obtain ⟨row₁, hrow₁, hs₁⟩ := hr _ _ hq
    rw [hp, hrow] at hrow₁
    exact absurd (Option.some.inj hrow₁ ▸ hs₁) hs

/-- There is a payment, and it has succeeded. -/
def hasSucceeded (row? : Option Payment) : Bool := row?.any fun row => decide (row.status ∈ settled)

/-- The ledger has the capture of a payment that has succeeded, once, and of no other. -/
def Counted (D : Db) (p : Uuid) : Prop :=
  (ledger D p).countP captures = if hasSucceeded (D.payment? p) then 1 else 0

theorem captures_of_booked {p : Uuid} {before after : Option Payment} {es : List PaymentEvent}
    {os : List OutboxEvent} (h : Booked D p b before after es os)
    (hmove : ∀ row row', before = some row → after = some row' → row.status ∉ settled →
      row'.status ∈ settled → row.status = .processing ∧ row'.status = .succeeded) :
    es.countP captures = if hasSucceeded before = false ∧
    hasSucceeded after = true then 1 else 0 := by
  cases h with
  | untouched hst =>
    have hsame : hasSucceeded after = hasSucceeded before := by
      cases before <;> cases after <;> simp_all [hasSucceeded]
    simp [hsame]
  | created htype hprev hnew hst =>
    simp [captures, hnew, hasSucceeded, hst, settled]
  | @noted row row' e _ hst hprev hnew =>
    have hno : captures e = false := by
      simp only [captures, hprev, hnew, Option.some.injEq, decide_eq_false_iff_not]
      rintro ⟨h₁, h₂⟩
      simp [h₁] at h₂
    simp [hno, hasSucceeded, hst]
  | @moved row row' e o hprev hnew hname =>
    have hiff : captures e = true ↔ row.status = .processing ∧ row'.status = .succeeded := by
      simp [captures, hprev, hnew]
    have hcount : [e].countP captures = if captures e then 1 else 0 := List.countP_singleton
    rw [hcount]
    by_cases hs : row.status ∈ settled
    · have hno : captures e = false := by
        rw [Bool.eq_false_iff, Ne, hiff]
        rintro ⟨hst, -⟩
        simp [hst, settled] at hs
      simp [hno, hasSucceeded, hs]
    · by_cases hs' : row'.status ∈ settled
      · have hyes : captures e = true := hiff.mpr (hmove row row' rfl rfl hs hs')
        simp [hyes, hasSucceeded, hs, hs']
      · have hno : captures e = false := by
          rw [Bool.eq_false_iff, Ne, hiff]
          rintro ⟨-, hst⟩
          simp [hst, settled] at hs'
        simp [hno, hasSucceeded, hs']
  | released hbq hq hpay hst hst' => simp [hasSucceeded, hst, settled]

theorem counted_step (hr : RefundsSettled D) (hreq : Requires b D) (h : Does P b now D ws r)
    {p : Uuid} (hp : Counted D p) : Counted (store.applyAll D ws) p := by
  have hkeep : hasSucceeded (D.payment? p) = true →
      hasSucceeded ((store.applyAll D ws).payment? p) = true := by
    simp only [hasSucceeded, Option.any_eq_true, decide_eq_true_eq]
    rintro ⟨row, hrow, hs⟩
    exact settled_step hreq h hrow hs
  have hes := captures_of_booked (booked_of_does h p) fun row row' hrow hrow' hs hs' => by
    have hstep := payment_step hreq h p
    rw [hrow, hrow'] at hstep
    cases hstep with
    | keep he => exact absurd (he ▸ hs') hs
    | move hm =>
      obtain ⟨hst, hst', -⟩ := capture_of_move hr hm hs hs'
      exact ⟨hst, hst'⟩
  unfold Counted at hp ⊢
  rw [ledger_applyAll, List.countP_append, hp, hes]
  by_cases hbefore : hasSucceeded (D.payment? p) = true
  · simp [hbefore, hkeep hbefore]
  · simp [hbefore]

/-- A capture writes one event and one outbox row, in one of three transactions. -/
theorem capture_of_does (hr : RefundsSettled D) (hreq : Requires b D) (h : Does P b now D ws r)
    {p : Uuid} (hc : CapturesPayment p D (store.applyAll D ws)) : ConfirmsPayment p b ∧
      (∃ e, ws.filterMap newPaymentEvent? = [e] ∧ e.paymentId = p ∧ captures e = true) ∧
      ∃ o, ws.filterMap newOutboxEvent? = [o] ∧ names "payment_id" p o = true := by
  obtain ⟨row, row', hrow, hst, hrow', hst'⟩ := hc
  have hstep := payment_step hreq h p
  have hbook := booked_of_does h p
  have hnew := newPaymentEvents_of_does hreq h
  rw [hrow, hrow'] at hstep hbook
  generalize hes : ws.filterMap newPaymentEvent? = es at hbook hnew
  generalize ws.filterMap newOutboxEvent? = os at hbook
  have hconf : ConfirmsPayment p b := by
    cases hstep with
    | keep he => rw [hst, hst'] at he; simp at he
    | move hm =>
      obtain ⟨-, -, hconf⟩ := capture_of_move hr hm (by simp [hst, settled]) (by simp [hst', settled])
      exact hconf
  have hone : es.length ≤ 1 := by cases hnew <;> simp
  refine ⟨hconf, ?_⟩
  generalize hfilter : es.filter (fun e => e.paymentId = p) = mine at hbook
  cases hbook with
  | untouched he => simp [hst, hst'] at he
  | noted he => rw [hst, hst'] at he; simp at he
  | released _ _ _ he _ => rw [hst] at he; simp at he
  | @moved _ _ e o hprev hnew' hname =>
    have hmem : e ∈ es.filter fun e => e.paymentId = p := hfilter ▸ List.mem_singleton_self e
    obtain ⟨hmem, hpay⟩ := List.mem_filter.mp hmem
    obtain ⟨e', rfl⟩ : ∃ e', es = [e'] := by
      cases es with
      | nil => simp at hmem
      | cons e' rest => exact ⟨e', by simpa using hone⟩
    obtain rfl := List.mem_singleton.mp hmem
    refine ⟨⟨e, rfl, by simpa using hpay, ?_⟩, o, rfl, hname⟩
    simp [captures, hprev, hnew', hst, hst']

/-- **A payment is captured once.** In every reachable state: a step that brings the payment from
`PROCESSING` to `SUCCEEDED` commits one of three transactions, which writes one event and one outbox
row, and no later step does it again; and the ledger of the payment has one event of it if the
payment is `SUCCEEDED`, `REFUND_PENDING` or `REFUNDED`, and none otherwise. -/
theorem captured_once {s : State P} (h : Reachable P s) (p : Uuid) :
    (∀ a s', (payflow P).step s a = some s' → CapturesPayment p s.db s'.db →
      (∃ pid pick b now ws, ∃ r : BRes b, a = .step pid pick ∧
        Machine.AtCommit s pid b now ws r ∧ ConfirmsPayment p b) ∧
      (∃ e, s'.db.paymentEvents = s.db.paymentEvents ++ [e] ∧ e.paymentId = p ∧ captures e = true) ∧
      (∃ o, s'.db.outboxEvents = s.db.outboxEvents ++ [o] ∧ names "payment_id" p o = true) ∧
      ∀ s₁ a₁ s₂, Machine.Reachable (payflow P) s' s₁ → (payflow P).step s₁ a₁ = some s₂ →
        ¬ CapturesPayment p s₁.db s₂.db) ∧
    (ledger s.db p).countP captures = if (s.db.payment? p).any (fun row => decide
      (row.status ∈ [PaymentStatus.succeeded, .refundPending, .refunded])) then 1 else 0 := by
  have hrefunds : RefundsSettled s.db := db_invariant (by simp [RefundsSettled, Db.refund?, Db.empty])
    (fun hi hreq h _ hr => refundsSettled_step hi hreq h hr) (reachableWhen_true h)
  have hcounted : RefundsSettled s.db ∧ Counted s.db p :=
    db_invariant (I := fun D => RefundsSettled D ∧ Counted D p)
      (by simp [RefundsSettled, Counted, hasSucceeded, ledger, Db.refund?, Db.payment?, Db.empty])
      (fun hi hreq h _ hrc =>
        ⟨refundsSettled_step hi hreq h hrc.1, counted_step hrc.1 hreq h hrc.2⟩)
      (reachableWhen_true h)
  refine ⟨fun a s' hs hc => ?_, hcounted.2⟩
  have hs' : Reachable P s' := .step h trivial hs
  have hnever : ∀ s₁ a₁ s₂, Machine.Reachable (payflow P) s' s₁ →
      (payflow P).step s₁ a₁ = some s₂ → ¬ CapturesPayment p s₁.db s₂.db := by
    rintro s₁ a₁ s₂ h₁ - ⟨row₁, -, hrow₁, hst₁, -⟩
    obtain ⟨row, row', -, -, hrow', hst'⟩ := hc
    obtain ⟨row₂, hrow₂, hs₂⟩ := settled_later hs' h₁ hrow' (by simp [hst', settled])
    rw [Option.some.inj (hrow₂.symm.trans hrow₁), hst₁] at hs₂
    simp [settled] at hs₂
  rcases step_commit h hs with hdb | ⟨pid, pick, b, now, ws, r, rfl, hcommit, hreq, hdoes, hdb⟩
  · obtain ⟨row, row', hrow, hst, hrow', hst'⟩ := hc
    rw [hdb, hrow] at hrow'
    rw [Option.some.inj hrow', hst'] at hst
    simp at hst
  · rw [hdb] at hc
    obtain ⟨hconf, ⟨e, hes, hpay, hcap⟩, o, hos, hname⟩ := capture_of_does hrefunds hreq hdoes hc
    refine ⟨⟨pid, pick, b, now, ws, r, rfl, hcommit, hconf⟩, ⟨e, ?_, hpay, hcap⟩,
      ⟨o, ?_, hname⟩, hnever⟩
    · rw [hdb, paymentEvents_applyAll, hes]
    · rw [hdb, outboxEvents_applyAll, hos]

/-- The capture of a payment, by the answer of the provider. -/
theorem captured_once_onePayment : ∃ s s' : State examplePlatform,
    CapturesPayment (exampleUuid 1) s.db s'.db ∧
    (∃ e, s'.db.paymentEvents = s.db.paymentEvents ++ [e] ∧ e.paymentId = exampleUuid 1 ∧
      captures e = true) ∧
    (ledger s.db (exampleUuid 1)).countP captures = 0 ∧
    (ledger s'.db (exampleUuid 1)).countP captures = 1 := by
  have h : ((payflow examplePlatform).run (init _) (createPaymentScript 0 1 ++
      startPaymentScript 1 0 4 ++ [answer 1 "provider_payment_id" "SUCCEEDED" 6] ++ quiet 1 3 ++
      draw 1 [7, 8])).bind (fun s =>
      ((payflow examplePlatform).step s (.step 1 .nothing)).map fun s' =>
        ((s.db.payment? (exampleUuid 1)).map (·.status),
          (s'.db.payment? (exampleUuid 1)).map (·.status))) =
      some (some .processing, some .succeeded) := by decide +kernel
  obtain ⟨s, hs, h⟩ := Option.bind_eq_some_iff.mp h
  obtain ⟨s', hs', h⟩ := Option.map_eq_some_iff.mp h
  simp only [Prod.mk.injEq, Option.map_eq_some_iff] at h
  obtain ⟨⟨row, hrow, hst⟩, row', hrow', hst'⟩ := h
  have hcap : CapturesPayment (exampleUuid 1) s.db s'.db := ⟨row, row', hrow, hst, hrow', hst'⟩
  have hreach : Reachable examplePlatform s := .run hs
  obtain ⟨hstep, hcount⟩ := captured_once hreach (exampleUuid 1)
  obtain ⟨-, hevent, -, -⟩ := hstep _ _ hs' hcap
  have hcount' := (captured_once (.step hreach trivial hs') (exampleUuid 1)).2
  refine ⟨s, s', hcap, hevent, ?_, ?_⟩
  · rw [hcount, hrow]
    simp [hst]
  · rw [hcount', hrow']
    simp [hst']

end Payflow.Safety
