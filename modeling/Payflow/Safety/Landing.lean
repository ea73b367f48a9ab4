import Payflow.Lib.Leaves
import Payflow.Safety.RefundCompletion

/-! # Where payments and refunds are left

A payment is stranded where it is `PROCESSING` without the id at the provider, since reconciliation
never looks at it; a refund is closed when it has its last status and its payment does not wait for
it. `withoutMishap` has the terms under which no commit strands a payment that has landed or opens a
refund that is closed (`moves`). -/

namespace Payflow.Safety

open Payflow.Lib Payflow.Model Payflow.Spec

variable {P : Platform}

/-! ### Where payments and refunds can be left -/

/-- Reconciliation never looks at the payment: it is `PROCESSING` without the provider's id. -/
def Stranded (row : Payment) : Prop := row.status = .processing ∧ row.providerPaymentId = none

/-- The payment is there, and a worker has begun with it. -/
def PaymentBegun (D : Db) (p : Uuid) : Prop := ∃ row, D.payment? p = some row ∧
    row.status ≠ .created

/-- The payment is begun, and not stranded. -/
def Landed (D : Db) (p : Uuid) : Prop :=
  ∃ row, D.payment? p = some row ∧ row.status ≠ .created ∧ ¬ Stranded row

/-- The refund is there, and a worker has begun with it. -/
def RefundBegun (D : Db) (q : Uuid) : Prop :=
  ∃ refund, D.refund? q = some refund ∧ refund.status ≠ .created

/-- The refund has its last status. -/
def RefundEnded (D : Db) (q : Uuid) : Prop :=
  ∃ refund, D.refund? q = some refund ∧ (refund.status = .succeeded ∨ refund.status = .failed)

/-- The payment waits for the refund: it is `REFUND_PENDING`, and the refund is its last one. -/
def Awaited (D : Db) (q : Uuid) : Prop :=
  ∃ refund row, D.refund? q = some refund ∧ D.payment? refund.paymentId = some row ∧
    row.status = .refundPending ∧ (refundIds D refund.paymentId).getLast? = some q

/-- The refund has its last status, and its payment does not wait for it. -/
def RefundClosed (D : Db) (q : Uuid) : Prop := RefundEnded D q ∧ ¬ Awaited D q

/-! ### The terms -/

/-- The parameter can be adapted to its column. -/
def Adapts (x : Except Exn (Option String)) : Prop := ∃ t, x = .ok t

/-- The caller of the provider client can work on: the exception is one that it handles, with a
message that can be stored, or the body has what it needs. -/
def Usable (rejected : String → String) (fields : Json → Prop) : HttpOutcome → Prop
  | .timeoutException | .networkError => True
  | .otherError _ => False
  | .response statusCode text json =>
    500 ≤ statusCode ∨
    (400 ≤ statusCode ∧ statusCode < 500 ∧ hasNul (firstTwoHundred (rejected text)) = false) ∨
    (statusCode < 400 ∧ ∃ body, json = .ok body ∧ fields body)

/-- The fields of an answer about a payment are there, and can be stored. -/
def PaymentFields (P : Platform) (body : Json) : Prop :=
  ∃ status id, body.getItem "status" = .ok status ∧
    body.getItem "provider_payment_id" = .ok id ∧
    if status.isStr "PROCESSING" then Adapts (id.assignText P) else Adapts (id.textParam P)

/-- The fields of an answer about a refund are there, and can be stored. -/
def RefundFields (P : Platform) (body : Json) : Prop :=
  ∃ status id t, body.getItem "status" = .ok status ∧
    body.getItem "provider_refund_id" = .ok id ∧ id.textParam P = .ok t ∧ Adapts (varcharOption t)

/-- `process_payment` can work on with the outcome of its request. -/
def PaymentUsable (P : Platform) : HttpOutcome → Prop :=
  Usable (fun text => "Provider rejected request: " ++ text) (PaymentFields P)

/-- `process_refund` can work on with the outcome of its request. -/
def RefundUsable (P : Platform) : HttpOutcome → Prop :=
  Usable (fun text => "Provider refund failed: " ++ text) (RefundFields P)

/-- A commit neither brings a payment back from `FAILED` to `PROCESSING` nor notes that a
payment has no id, and no task looks at a refund with its last status while the payment still waits
for it. -/
def plainCommit (P : Platform) : Block → Db → Prop
  | .recordTransition p _ new _ _, D =>
    new = .processing → ∀ row, D.payment? p = some row → row.status ≠ .failed
  | .recordAwaitingWebhook p provider, D =>
    ∀ row, D.payment? p = some row → row.status = .processing → provider.assignText P ≠ .ok none
  | .getRefund q, D => RefundEnded D q → ¬ Awaited D q
  | _, _ => True

/-- No transition of a refund fails that has its last status while the payment still waits. -/
def plainRollback : Block → Db → Prop
  | .recordRefundTransition q _ _ _ _, D => RefundEnded D q → ¬ Awaited D q
  | _, _ => True

/-- The provider answers, and the broker takes the message of a retry, unless all is done. -/
def plainAnswer (P : Platform) : (e : Ext) → Db → ERes e → Prop
  | .postPayment _ json, D, out => PaymentUsable P out ∨ Landed D json.paymentId
  | .postRefund _ json, D, out => RefundUsable P out ∨ RefundClosed D json.refundId
  | .sendRetry (.processPayment p _) _, D, sent => (sent : Bool) = true ∨ Landed D p
  | .sendRetry (.processRefund q _) _, D, sent => (sent : Bool) = true ∨ RefundClosed D q
  | _, _, _ => True

/-- Nothing happens that ends a task halfway. -/
def withoutMishap (P : Platform) : Terms Db Block ERes where
  commit := plainCommit P
  rollback := plainRollback
  answer := plainAnswer P

/-! ### How the database moves on -/

/-- What has landed or is closed stays so. -/
structure Onward (D D' : Db) : Prop extends Le D D' where
  begun : ∀ p, PaymentBegun D p → PaymentBegun D' p
  landed : ∀ p, Landed D p → Landed D' p
  closed : ∀ q, RefundClosed D q → RefundClosed D' q

section moves

variable {b : Block} {now : ℕ} {D D' : Db} {ws : List Write} {r : BRes b}

/-- The columns that a transaction gives a payment: they do not bring it back to `CREATED`. -/
theorem PaymentSet.not_created {row : Payment} {cols : PaymentCols} (hreq : Requires b D)
    (h : PaymentSet P now D row b cols) (hs : row.status ≠ .created) : cols.status ≠ .created := by
  rcases h.move hreq with he | hm
  · rwa [he]
  · generalize cols.status = st at hm
    generalize row.status = st₀ at hm hs
    cases hm with
    | transition hv _ => cases st₀ <;> cases st <;> simp_all [validTransitions]
    | webhook ht | reconcile ht => rcases ht with rfl | rfl <;> simp
    | refund | restore => simp
    | complete =>
      unfold statusAfterRefund
      split_ifs <;> simp

theorem PaymentSet.not_stranded {row : Payment} {cols : PaymentCols} (hreq : Requires b D)
    (hrow : D.payment? row.id = some row) (hT : plainCommit P b D)
    (h : PaymentSet P now D row b cols) (hs : row.status ≠ .created) (hst : ¬ Stranded row) :
    ¬ Stranded { row with toPaymentCols := cols } := by
  rintro ⟨hproc, hnone⟩
  cases h with
  | @transition type new provider failure provider' failure' hv hprov hfail =>
    obtain rfl : new = .processing := hproc
    have hne := hT rfl row hrow
    generalize row.status = st at hv hs hne
    cases st <;> simp_all [validTransitions]
  | awaiting hs₁ hprov =>
    obtain rfl := hnone
    exact hT row hrow hs₁ hprov
  | retry hs₁ => exact hst ⟨hs₁, hnone⟩
  | webhook =>
    unfold webhookStatus at hproc
    split_ifs at hproc
  | reconcile =>
    obtain rfl := hproc
    simp [Requires] at hreq
  | refund | restore => simp at hproc
  | complete =>
    simp only [statusAfterRefund] at hproc
    split_ifs at hproc

theorem begun_after (hreq : Requires b D) (h : Does P b now D ws r) {p : Uuid}
    (hp : PaymentBegun D p) :
    PaymentBegun (store.applyAll D ws) p := by
  obtain ⟨row, hrow, hs⟩ := hp
  have hstep := row_step h p
  rw [hrow] at hstep
  generalize hrow' : (store.applyAll D ws).payment? p = after at hstep
  cases hstep with
  | same => exact ⟨row, hrow', hs⟩
  | set hset => exact ⟨_, hrow', PaymentSet.not_created hreq hset hs⟩

theorem landed_after (hreq : Requires b D) (h : Does P b now D ws r) (hT : plainCommit P b D)
    {p : Uuid} (hp : Landed D p) : Landed (store.applyAll D ws) p := by
  obtain ⟨row, hrow, hs, hst⟩ := hp
  have hstep := row_step h p
  rw [hrow] at hstep
  generalize hrow' : (store.applyAll D ws).payment? p = after at hstep
  cases hstep with
  | same => exact ⟨row, hrow', hs, hst⟩
  | set hset =>
    have hrow₀ : D.payment? row.id = some row := by rwa [payment_id hrow]
    exact ⟨_, hrow', PaymentSet.not_created hreq hset hs,
      PaymentSet.not_stranded hreq hrow₀ hT hset hs hst⟩

theorem RefundBegun.le {q : Uuid} (h : RefundBegun D q) (hle : Le D D') : RefundBegun D' q := by
  obtain ⟨refund, hq, hs⟩ := h
  obtain ⟨refund', hq', cols, rfl, hst⟩ := hle.refund hq
  refine ⟨_, hq', ?_⟩
  rcases hst with he | he | ⟨-, he⟩
  · exact he ▸ hs
  · exact absurd he hs
  · exact he

theorem RefundEnded.le {q : Uuid} (h : RefundEnded D q) (hle : Le D D') : RefundEnded D' q := by
  obtain ⟨refund, hq, hs⟩ := h
  obtain ⟨refund', hq', cols, rfl, hst⟩ := hle.refund hq
  refine ⟨_, hq', ?_⟩
  rcases hst with he | he | ⟨he, -⟩
  · exact he ▸ hs
  · simp [he] at hs
  · simp [he] at hs

/-- A payment that waits for a refund that has ended has waited for it before. -/
theorem awaited_before (hi : Inv D) (hreq : Requires b D) (h : Does P b now D ws r) {q : Uuid}
    (hend : RefundEnded D q) (hwait : Awaited (store.applyAll D ws) q) : Awaited D q := by
  obtain ⟨refund, hq, hs⟩ := hend
  obtain ⟨refund', hq', hpid, hmove⟩ := refund_after hi hreq h hq
  obtain ⟨refund₁, row', hq₁, hrow', hs', hlast⟩ := hwait
  obtain rfl := Option.some.inj (hq'.symm.trans hq₁)
  rcases last_before hi hreq h hrow' hs' with ⟨q₁, refund₁, hlast₁, hq₁, hf⟩ | ⟨hids,
    row, hrow, hs₁⟩
  · -- the last refund of the payment is in flight
    obtain rfl := Option.some.inj (hlast.symm.trans hlast₁)
    obtain rfl := Option.some.inj (hq₁.symm.trans hq')
    rcases hmove with he | hm
    · unfold InFlight at hf
      rw [he] at hf
      rcases hs with hs | hs <;> simp [hs] at hf
    · rcases RefundMove.inFlight hm with he | he <;> simp [he] at hs
  · rw [hids] at hlast
    rw [hpid] at hlast hrow
    exact ⟨refund, row, hq, hrow, hs₁, hlast⟩

theorem closed_after (hi : Inv D) (hreq : Requires b D) (h : Does P b now D ws r) {q : Uuid}
    (hq : RefundClosed D q) : RefundClosed (store.applyAll D ws) q :=
  ⟨hq.1.le (keep_of_does hi hreq h).2, fun hwait => hq.2 (awaited_before hi hreq h hq.1 hwait)⟩

/-- **The commits within the terms** move the database on. -/
theorem moves (P : Platform) :
    Machine.Moves (payflow P) rely (contract P) (withoutMishap P) Onward where
  refl D := ⟨.refl D, fun _ h => h, fun _ h => h, fun _ h => h⟩
  trans h h' := ⟨h.toLe.trans h'.toLe, fun p hp => h'.begun p (h.begun p hp),
    fun p hp => h'.landed p (h.landed p hp), fun q hq => h'.closed q (h.closed q hq)⟩
  commit hi hreq hdoes hT := ⟨(keep_of_does hi hreq hdoes).2, fun _ => begun_after hreq hdoes,
    fun _ => landed_after hreq hdoes hT, fun _ => closed_after hi hreq hdoes⟩

theorem closed_of_ending (hi : Inv D) (hreq : Requires b D) (h : Does P b now D ws r) {q : Uuid}
    (hb : Ending q b) (hend : RefundEnded D q) : RefundClosed (store.applyAll D ws) q := by
  refine ⟨hend.le (keep_of_does hi hreq h).2, fun hwait => ?_⟩
  obtain ⟨refund, row, hq, hrow, hs, hlast⟩ := awaited_before hi hreq h hend hwait
  obtain ⟨refund', row', hq', hrow', hs', -⟩ := hwait
  obtain ⟨refund₁, hq₁, hpid, -⟩ := refund_after hi hreq h hq
  obtain rfl := Option.some.inj (hq'.symm.trans hq₁)
  rw [hpid] at hrow'
  exact released_of_ending hi hreq h hb hq rfl hlast hrow hs hrow' hs'

end moves

end Payflow.Safety
