import Payflow.Safety.Stranded
import Payflow.Safety.Lifecycle
import Payflow.Spec.Ledger

/-! # What the result of a task says

What `process_payment` and `process_refund` return is true of the database, when they return and
ever after, in every run: a payment of which a worker has said that it succeeded stays paid, a failure
is in the ledger, and a refund has the status of the result. -/

namespace Payflow.Safety

open Payflow.Lib Payflow.Model Payflow.Spec

variable {P : Platform} {α : Type} {b : Block} {now : ℕ} {D D' : Db} {ws : List Write} {r : BRes b}
  {p q : Uuid}

/-! ### What is said -/

/-- The payment has succeeded. -/
def Paid (D : Db) (p : Uuid) : Prop := ∃ row, D.payment? p = some row ∧ row.status ∈ settled

/-- The ledger has an event by which the payment was `FAILED`. -/
def FailedEvent (D : Db) (p : Uuid) : Prop :=
  ∃ e ∈ D.paymentEvents, e.paymentId = p ∧ e.newStatus = .failed

/-- The refund has the status. -/
def RefundIs (D : Db) (q : Uuid) (status : RefundStatus) : Prop :=
  ∃ refund, D.refund? q = some refund ∧ refund.status = status

/-- What the results of `process_payment` say. -/
def PaymentTold (p : Uuid) (D : Db) : TaskResult → Prop
  | .succeeded | .alreadyCompleted => Paid D p
  | .awaitingWebhook => PaymentBegun D p
  | .failed | .retriesExhausted | .permanentFailure | .alreadyFailed => FailedEvent D p
  | .notFound | .alreadySucceeded => False

/-- What the results of `process_refund` say. -/
def RefundTold (q : Uuid) (D : Db) : TaskResult → Prop
  | .succeeded => RefundIs D q .succeeded ∧ ¬ Awaited D q
  | .alreadySucceeded => RefundIs D q .succeeded
  | .failed | .retriesExhausted | .permanentFailure => RefundIs D q .failed ∧ ¬ Awaited D q
  | .alreadyFailed => RefundIs D q .failed
  | .notFound | .alreadyCompleted | .awaitingWebhook => False

/-- What the result of the task says. -/
def TaskTold : Task → Db → TaskResult → Prop
  | .processPayment p _ => PaymentTold p
  | .processRefund q _ => RefundTold q

/-! ### How the database moves on -/

/-- The ledger shows why a payment is `FAILED`. -/
def FailuresBooked (D : Db) : Prop :=
  ∀ p row, D.payment? p = some row → row.status = .failed → FailedEvent D p

/-- What a result says stays so. -/
structure Since (D D' : Db) : Prop extends Le D D' where
  begun : ∀ p, PaymentBegun D p → PaymentBegun D' p
  paid : ∀ p, Paid D p → Paid D' p
  failed : ∀ p, FailedEvent D p → FailedEvent D' p
  booked : FailuresBooked D → FailuresBooked D'
  released : ∀ q, RefundClosed D q → RefundClosed D' q

theorem failedEvent_applyAll (ws : List Write) (h : FailedEvent D p) : FailedEvent (store.applyAll D ws) p := by
  obtain ⟨e, he, hp⟩ := h
  exact ⟨e, paymentEvents_applyAll ws D ▸ List.mem_append_left _ he, hp⟩

theorem failuresBooked_step (h : Does P b now D ws r) (hD : FailuresBooked D) :
    FailuresBooked (store.applyAll D ws) := by
  intro p row' hrow' hs'
  have hbooked := booked_of_does h p
  rw [hrow'] at hbooked
  have hnew : ∀ e ∈ (ws.filterMap newPaymentEvent?).filter (fun e => e.paymentId = p),
      e.newStatus = .failed → FailedEvent (store.applyAll D ws) p := by
    intro e he hfailed
    obtain ⟨hmem, hid⟩ := List.mem_filter.mp he
    exact ⟨e, paymentEvents_applyAll ws D ▸ List.mem_append_right _ hmem, of_decide_eq_true hid,
      hfailed⟩
  have hold : ∀ row, D.payment? p = some row → row.status = .failed →
      FailedEvent (store.applyAll D ws) p :=
    fun row hrow hs => failedEvent_applyAll ws (hD p row hrow hs)
  generalize hbefore : D.payment? p = before at hbooked hold
  generalize (ws.filterMap newPaymentEvent?).filter (fun e => e.paymentId = p) = es at hbooked hnew
  generalize ws.filterMap newOutboxEvent? = os at hbooked
  cases hbooked with
  | untouched hst =>
    obtain ⟨row, rfl, he⟩ := Option.map_eq_some_iff.mp (hst.symm.trans (Option.map_some ..))
    exact hold row rfl (he.trans hs')
  | created _ _ _ hcreated => simp [hcreated] at hs'
  | noted hst => exact hold _ rfl (hst.symm.trans hs')
  | moved _ hleft => exact hnew _ (List.mem_singleton_self _) (hleft.trans hs')
  | released _ _ _ _ hreleased => simp [hreleased] at hs'

theorem moves_since (P : Platform) :
    Machine.Moves (payflow P) rely (contract P) Terms.any Since where
  refl D := ⟨.refl D, fun _ h => h, fun _ h => h, fun _ h => h, fun h => h, fun _ h => h⟩
  trans h h' := ⟨h.toLe.trans h'.toLe, fun p hp => h'.begun p (h.begun p hp),
    fun p hp => h'.paid p (h.paid p hp), fun p hp => h'.failed p (h.failed p hp),
    fun hD => h'.booked (h.booked hD), fun q hq => h'.released q (h.released q hq)⟩
  commit hi hreq hdoes _ := ⟨(keep_of_does hi hreq hdoes).2, fun _ => begun_after hreq hdoes,
    fun _ ⟨_, hrow, hs⟩ => settled_step hreq hdoes hrow hs, fun _ => failedEvent_applyAll _,
    failuresBooked_step hdoes, fun _ => closed_after hi hreq hdoes⟩

theorem RefundIs.since {status : RefundStatus} (h : RefundIs D q status)
    (hend : status = .succeeded ∨ status = .failed) (hD : Since D D') : RefundIs D' q status := by
  obtain ⟨refund, hq, rfl⟩ := h
  obtain ⟨refund', hq', cols, rfl, hst⟩ := hD.toLe.refund hq
  refine ⟨_, hq', ?_⟩
  rcases hst with he | he | ⟨he, -⟩
  · exact he.symm
  · rcases hend with h | h <;> simp [h] at he
  · rcases hend with h | h <;> simp [h] at he

theorem PaymentTold.since {res : TaskResult} (h : PaymentTold p D res) (hD : Since D D') :
    PaymentTold p D' res := by
  cases res with
  | succeeded | alreadyCompleted => exact hD.paid p h
  | awaitingWebhook => exact hD.begun p h
  | failed | retriesExhausted | permanentFailure | alreadyFailed => exact hD.failed p h
  | notFound | alreadySucceeded => exact h

theorem RefundTold.since {res : TaskResult} (h : RefundTold q D res) (hD : Since D D') :
    RefundTold q D' res := by
  have hclosed : RefundEnded D q → ¬ Awaited D q → ¬ Awaited D' q := fun hend hwait =>
    (hD.released q ⟨hend, hwait⟩).2
  cases res with
  | succeeded =>
    obtain ⟨⟨refund, hq, hs⟩, hwait⟩ := h
    exact ⟨RefundIs.since ⟨refund, hq, hs⟩ (Or.inl rfl) hD,
      hclosed ⟨refund, hq, Or.inl hs⟩ hwait⟩
  | alreadySucceeded => exact RefundIs.since h (Or.inl rfl) hD
  | failed | retriesExhausted | permanentFailure =>
    obtain ⟨⟨refund, hq, hs⟩, hwait⟩ := h
    exact ⟨RefundIs.since ⟨refund, hq, hs⟩ (Or.inr rfl) hD,
      hclosed ⟨refund, hq, Or.inr hs⟩ hwait⟩
  | alreadyFailed => exact RefundIs.since h (Or.inr rfl) hD
  | notFound | alreadyCompleted | awaitingWebhook => exact h

/-! ### The rules -/

/-- What is returned is as `F` says; a failure that is raised leaves the failures booked. -/
def Returns (F : α → Db → Prop) : Except Exn α → Db → Prop
  | .ok a, D => F a D
  | .error _, D => FailuresBooked D

/-- From the database `D` on the program returns only what is as `F` says. -/
abbrev Tells (P : Platform) (F : α → Db → Prop) (prog : Proc α) (D : Db) : Prop :=
  Machine.Leaves (payflow P) rely (contract P) Terms.any Since (Returns F) prog D

section rules

variable {F : α → Db → Prop}

/-- The rule for a transaction: `E` is what its statements have seen, its contract says what it
commits. -/
theorem tells_txn (hD : FailuresBooked D) {b : Block} {k : BRes b → Proc α}
    (E : Except Exn (BRes b) → Db → Prop)
    (hbody : ∀ D' now, Since D D' →
      Machine.TxLeaves (payflow P) rely Since now (fun res _ => E res) (body P b) [] D')
    (h : ∀ D₁ D₂ now ws a, Since D D₁ → E (.ok a) D₁ → Since D₁ D₂ → Inv D₂ → Requires b D₂ →
      Does P b now D₂ ws a → FailuresBooked (store.applyAll D₂ ws) →
      Tells P F (k a) (store.applyAll D₂ ws)) :
    Tells P F ((txn b).bind k) D := by
  refine Machine.Leaves.txn (moves_since P) E hbody ?_ ?_
  · intro D₁ D₂ now ws a h₁ hE h₂ hi hreq hdoes _
    exact h D₁ D₂ now ws a h₁ hE h₂ hi hreq hdoes
      (failuresBooked_step hdoes (h₂.booked (h₁.booked hD)))
  · intro D₁ D₂ e h₁ _ h₂ _ _ _
    exact h₂.booked (h₁.booked hD)

theorem tells_commit (hD : FailuresBooked D) {b : Block} {k : BRes b → Proc α}
    (h : ∀ D' now ws a, Since D D' → Inv D' → Requires b D' → Does P b now D' ws a →
      FailuresBooked (store.applyAll D' ws) → Tells P F (k a) (store.applyAll D' ws)) :
    Tells P F ((txn b).bind k) D :=
  tells_txn hD (fun _ _ => True)
    (fun _ _ _ => Machine.TxLeaves.stays (moves_since P) (F := fun _ => True) (fun _ _ _ h => h)
      (fun _ _ _ h => h) trivial)
    fun _ D₂ now ws a h₁ _ h₂ => h D₂ now ws a ((moves_since P).trans h₁ h₂)

theorem tells_getPayment (hD : FailuresBooked D) {k : Option Payment → Proc α}
    (h : ∀ D₁ D₂, Since D D₁ → Since D₁ D₂ → Tells P F (k (D₁.payment? p)) D₂) :
    Tells P F ((txn (.getPayment p)).bind k) D := by
  refine tells_txn hD (fun res D => res = .ok (D.payment? p)) ?_ ?_
  · rintro D' now - D₁ - - pick found ws he
    obtain ⟨rfl, rfl⟩ := Prod.mk.inj (Option.some.inj he)
    exact rfl
  · rintro D₁ D₂ now ws found h₁ hfound h₂ - - ⟨rfl, -⟩ -
    obtain rfl := Except.ok.inj hfound
    exact h D₁ D₂ h₁ h₂

theorem tells_getRefund (hD : FailuresBooked D) {k : Option Refund → Proc α}
    (h : ∀ D₁ D₂, Since D D₁ → Since D₁ D₂ → Tells P F (k (D₁.refund? q)) D₂) :
    Tells P F ((txn (.getRefund q)).bind k) D := by
  refine tells_txn hD (fun res D => res = .ok (D.refund? q)) ?_ ?_
  · rintro D' now - D₁ - - pick found ws he
    obtain ⟨rfl, rfl⟩ := Prod.mk.inj (Option.some.inj he)
    exact rfl
  · rintro D₁ D₂ now ws found h₁ hfound h₂ - - ⟨rfl, -⟩ -
    obtain rfl := Except.ok.inj hfound
    exact h D₁ D₂ h₁ h₂

theorem tells_ofExcept (hD : FailuresBooked D) {β : Type} {x : Except Exn β} {k : β → Proc α}
    (h : ∀ a, Tells P F (k a) D) : Tells P F ((Prog.ofExcept x).bind k) D :=
  .ofExcept (fun _ _ => hD) fun a _ => h a

theorem tells_response (hD : FailuresBooked D) {transient : String} {unavailable : ℕ → String}
    {rejected : ℕ → String → String} (out : HttpOutcome) {k : Json → Proc α}
    (h : ∀ body, Tells P F (k body) D) :
    Tells P F ((providerResponse transient unavailable rejected out).bind k) D := by
  cases out with
  | timeoutException | networkError | otherError name => exact hD
  | response statusCode text json =>
    by_cases h₅ : 500 ≤ statusCode
    · rw [providerResponse_unavailable h₅]
      exact hD
    · by_cases h₄ : 400 ≤ statusCode
      · rw [providerResponse_rejected (by omega) h₄]
        exact hD
      · rw [providerResponse_ok (by omega)]
        exact tells_ofExcept hD h

theorem tells_retry (hD : FailuresBooked D) (task : Task) (retries : ℕ) :
    Tells P F (retry task retries) D := by
  intro D' hD' _ sent _
  cases sent <;> exact hD'.booked hD

/-! ### process_payment -/

theorem tells_recordTransition (hD : FailuresBooked D) {type : EventType} {new : PaymentStatus}
    {provider : Json} {failure : Option String} {k : Unit → Proc α}
    (h : ∀ D' row, FailuresBooked D' → D'.payment? p = some row → row.status = new →
      Tells P F (k ()) D') :
    Tells P F ((txn (.recordTransition p type new provider failure)).bind k) D := by
  refine tells_commit hD fun D' now ws a _ _ _ hdoes hbooked => ?_
  obtain ⟨row, hrow, ⟨hs, rfl⟩ | ⟨-, provider, failure, event, outbox, -, -, rfl⟩⟩ := hdoes
  · exact h _ row hbooked hrow hs
  · obtain rfl := payment_id hrow
    exact h _ _ hbooked (payment?_update_self hrow _) rfl

theorem tells_failed (hD : FailuresBooked D) {type : EventType} {provider : Json}
    {failure : Option String} {res : TaskResult} (hres : ∀ D, FailedEvent D p → PaymentTold p D res) :
    Tells P (fun res D => PaymentTold p D res)
      ((txn (.recordTransition p type .failed provider failure)).bind fun _ => .pure res) D :=
  tells_recordTransition hD fun D' row hbooked hrow hs => hres D' (hbooked p row hrow hs)

theorem tells_processPaymentTry (hD : FailuresBooked D) (hp : PaymentBegun D p) (payment : Payment)
    (scenario : Scenario) : Tells P (fun res D => PaymentTold p D res)
      (processPaymentTry p payment scenario) D := by
  intro D' hD' _ out _
  have hbooked := hD'.booked hD
  refine tells_response hbooked out fun body => ?_
  refine tells_ofExcept hbooked fun providerStatus => tells_ofExcept hbooked fun providerId => ?_
  refine .ite (fun _ => ?_) fun _ => .ite (fun _ => ?_) fun _ => ?_
  · refine tells_recordTransition hbooked fun D₁ row _ hrow hs => ?_
    exact ⟨row, hrow, by simp [hs, settled]⟩
  · refine tells_commit hbooked fun D₁ now ws a hD₁ _ hreq hdoes _ => ?_
    exact begun_after hreq hdoes (hD₁.begun p (hD'.begun p hp))
  · exact tells_failed hbooked fun _ h => h

theorem tells_processPaymentExcept (hD : FailuresBooked D) (retries : ℕ) (scenario : Scenario)
    (e : Exn) : Tells P (fun res D => PaymentTold p D res)
      (processPaymentExcept retries p scenario e) D := by
  unfold processPaymentExcept
  split
  · refine tells_commit hD fun D₁ now ws a _ _ _ _ hbooked => .ite (fun _ => ?_) fun _ => ?_
    · exact tells_failed hbooked fun _ h => h
    · exact tells_retry hbooked _ _
  · exact tells_failed hD fun _ h => h
  · exact hD

/-- **process_payment** returns what is true of its payment. -/
theorem tells_processPayment (hD : FailuresBooked D) (hp : ∃ row, D.payment? p = some row)
    (retries : ℕ) (scenario : Scenario) :
    Tells P (fun res D => PaymentTold p D res) (processPayment retries p scenario) D := by
  obtain ⟨row, hrow⟩ := hp
  refine tells_getPayment hD fun D₁ D₂ hD₁ hD₂ => ?_
  obtain ⟨row₁, hrow₁, -⟩ := hD₁.payment hrow
  have hbooked₁ := hD₁.booked hD
  have hbooked := hD₂.booked hbooked₁
  rw [hrow₁]
  have hrest : ∀ D', FailuresBooked D' → PaymentBegun D' p →
      Tells P (fun res D => PaymentTold p D res)
        ((processPaymentTry p row₁ scenario).handle (processPaymentExcept retries p scenario))
          D' := fun D' hD' hp =>
    Machine.Leaves.handle (moves_since P) (fun _ _ h => h)
      (fun e _ h => tells_processPaymentExcept h retries scenario e)
      (tells_processPaymentTry hD' hp row₁ scenario)
  refine .ite (fun hs => ?_) fun _ => .ite (fun hs => ?_) fun _ => .ite (fun _ => ?_) fun hs => ?_
  · exact hD₂.paid p ⟨row₁, hrow₁, by rcases hs with hs | hs <;> simp [hs, settled]⟩
  · exact hD₂.failed p (hbooked₁ p row₁ hrow₁ hs)
  · refine tells_recordTransition hbooked fun D' row hbooked hrow hs => ?_
    exact hrest D' hbooked ⟨row, hrow, by simp [hs]⟩
  · exact hrest D₂ hbooked (hD₂.begun p ⟨row₁, hrow₁, hs⟩)

/-! ### process_refund -/

theorem tells_recordRefundTransition (hD : FailuresBooked D) {type : EventType}
    {new : RefundStatus} {provider : Json} {failure : Option String} {k : Unit → Proc α}
    (h : ∀ D', FailuresBooked D' → RefundIs D' q new → Tells P F (k ()) D') :
    Tells P F ((txn (.recordRefundTransition q type new provider failure)).bind k) D := by
  refine tells_commit hD fun D' now ws a _ _ _ hdoes hbooked => h _ hbooked ?_
  obtain ⟨refund, hq, ⟨hs, rfl⟩ | ⟨-, provider, event, outbox, rfl⟩⟩ := hdoes
  · exact ⟨refund, hq, hs⟩
  · obtain rfl := refund_id hq
    exact ⟨_, refund?_update_self hq _, rfl⟩

/-- The refund has its last status, and its payment is released. -/
theorem tells_ending (hD : FailuresBooked D) {status : RefundStatus}
    (hend : status = .succeeded ∨ status = .failed) (hq : RefundIs D q status) {b : Block}
    (hb : Ending q b) {res : TaskResult}
    (hres : ∀ D, RefundIs D q status ∧ ¬ Awaited D q → RefundTold q D res) :
    Tells P (fun res D => RefundTold q D res) ((txn b).bind fun _ => .pure res) D := by
  refine tells_commit hD fun D' now ws a hD' hi hreq hdoes hbooked => hres _ ?_
  have hq' := hq.since hend hD'
  have hended : RefundEnded D' q := by
    obtain ⟨refund, hq, hs⟩ := hq'
    exact ⟨refund, hq, hs ▸ hend⟩
  refine ⟨hq'.since hend ((moves_since P).commit hi hreq hdoes trivial), ?_⟩
  exact (closed_of_ending hi hreq hdoes hb hended).2

/-- The refund is `FAILED`, its payment is released, and that is what is returned. -/
theorem tells_refundFailed (hD : FailuresBooked D) {type : EventType} {provider : Json}
    {failure : Option String} {res : TaskResult}
    (hres : ∀ D, RefundIs D q .failed ∧ ¬ Awaited D q → RefundTold q D res) :
    Tells P (fun res D => RefundTold q D res)
      ((txn (.recordRefundTransition q type .failed provider failure)).bind fun _ =>
        (txn (.restorePaymentAfterFailedRefund q)).bind fun _ => .pure res) D :=
  tells_recordRefundTransition hD fun _ hbooked hq =>
    tells_ending hbooked (Or.inr rfl) hq (Or.inr rfl) hres

theorem tells_processRefundTry (hD : FailuresBooked D) (refund : Refund)
    (scenario : RefundScenario) : Tells P (fun res D => RefundTold q D res)
      (processRefundTry q refund scenario) D := by
  refine tells_commit hD fun D₁ now ws payment _ _ _ _ hbooked => ?_
  cases Option.bind payment (·.providerPaymentId) with
  | none => exact hbooked
  | some providerPaymentId =>
    intro D' hD' _ out _
    have hbooked := hD'.booked hbooked
    refine tells_response hbooked out fun body => ?_
    refine tells_ofExcept hbooked fun providerStatus => tells_ofExcept hbooked fun providerId => ?_
    refine .ite (fun _ => ?_) fun _ => ?_
    · exact tells_recordRefundTransition hbooked fun _ hbooked hq =>
        tells_ending hbooked (Or.inl rfl) hq (Or.inl rfl) fun _ h => h
    · exact tells_refundFailed hbooked fun _ h => h

theorem tells_processRefundExcept (hD : FailuresBooked D) (retries : ℕ) (scenario : RefundScenario)
    (e : Exn) : Tells P (fun res D => RefundTold q D res)
      (processRefundExcept retries q scenario e) D := by
  unfold processRefundExcept
  split
  · refine tells_commit hD fun D₁ now ws a _ _ _ _ hbooked => .ite (fun _ => ?_) fun _ => ?_
    · exact tells_refundFailed hbooked fun _ h => h
    · exact tells_retry hbooked _ _
  · exact tells_refundFailed hD fun _ h => h
  · exact hD

/-- **process_refund** returns what is true of its refund. -/
theorem tells_processRefund (hD : FailuresBooked D) (hq : ∃ refund, D.refund? q = some refund)
    (retries : ℕ) (scenario : RefundScenario) :
    Tells P (fun res D => RefundTold q D res) (processRefund retries q scenario) D := by
  obtain ⟨refund, hq⟩ := hq
  refine tells_getRefund hD fun D₁ D₂ hD₁ hD₂ => ?_
  obtain ⟨refund₁, hq₁, -⟩ := hD₁.refund hq
  have hbooked := hD₂.booked (hD₁.booked hD)
  rw [hq₁]
  have hrest : ∀ D', FailuresBooked D' → Tells P (fun res D => RefundTold q D res)
      ((processRefundTry q refund₁ scenario).handle (processRefundExcept retries q scenario))
        D' := fun D' hD' =>
    Machine.Leaves.handle (moves_since P) (fun _ _ h => h)
      (fun e _ h => tells_processRefundExcept h retries scenario e)
      (tells_processRefundTry hD' refund₁ scenario)
  refine .ite (fun hs => ?_) fun _ => .ite (fun hs => ?_) fun _ => .ite (fun _ => ?_) fun _ => ?_
  · exact RefundIs.since ⟨refund₁, hq₁, hs⟩ (Or.inl rfl) hD₂
  · exact RefundIs.since ⟨refund₁, hq₁, hs⟩ (Or.inr rfl) hD₂
  · exact tells_recordRefundTransition hbooked fun D' hbooked _ => hrest D' hbooked
  · exact hrest D₂ hbooked

end rules

/-! ### The tasks -/

/-- What a process has answered, if it has one of the tasks. -/
def AnswerTold (task : Option Task) (a : Ans) (D : Db) : Prop :=
  ∀ t, task = some t → ∃ res, a = .task res ∧ TaskTold t D res

theorem lasting_answerTold (task : Option Task) :
    Machine.Lasting Since (Returns (AnswerTold task)) := by
  intro out D D' hD h
  cases out with
  | error e => exact hD.booked h
  | ok a =>
    intro t ht
    obtain ⟨res, ha, htold⟩ := h t ht
    refine ⟨res, ha, ?_⟩
    cases t with
    | processPayment p scenario => exact PaymentTold.since htold hD
    | processRefund q scenario => exact RefundTold.since htold hD

theorem tells_answer {t : Task} {prog : Proc TaskResult}
    (h : Tells P (fun res D => TaskTold t D res) prog D) :
    Tells P (AnswerTold (some t)) (prog.bind fun res => .pure (Ans.task res)) D := by
  refine Machine.Leaves.bind (moves_since P) ?_ ?_ h
  case refine_2 => exact fun _ _ h => h
  intro res D htold t' ht
  obtain rfl := Option.some.inj ht
  exact ⟨res, rfl, htold⟩

theorem failuresBooked_of_reachable {s : State P} (h : Reachable P s) : FailuresBooked s.db :=
  db_invariant (I := FailuresBooked) (fun p row hrow => by simp [Db.payment?, Db.empty] at hrow)
    (fun _ _ hdoes _ ih => failuresBooked_step hdoes ih) (reachableWhen_true h)

theorem workOf_ext {pid : ℕ} {pick : Pick} {w w' : World} {x : Start P} {task : Option Task} {e : Ext}
    {r : ERes e} (hx : ext pid pick w e = some (r, w')) (h : workOf w x = some task) :
    workOf w' x = some task := by
  cases x with
  | task i =>
    obtain ⟨t, ht, rfl⟩ := Option.map_eq_some_iff.mp h
    exact Option.map_eq_some_iff.mpr ⟨t, taskOf_ext hx ht, rfl⟩
  | _ => exact h

theorem workOf_finish (y : Start P) (out : Except Exn Ans) (w : World) (x : Start P) :
    workOf (finish P y out w) x = workOf w x := by
  cases x with
  | task i =>
    show (taskOf (finish P y out w) i).map some = _
    rw [taskOf_finish]
    rfl
  | _ => rfl

/-- A message is sent after its row is made, so every process answers what is true. -/
theorem tells_start {s : State P} (h : Reachable P s) {x : Start P} {prog : Proc Ans}
    (hstart : start P s.world x = some prog) :
    ∃ task, workOf s.world x = some task ∧ Tells P (AnswerTold task) prog s.db := by
  have hbooked := failuresBooked_of_reachable h
  cases x with
  | task i =>
    simp only [start] at hstart
    split at hstart
    · rename_i m hm
      split_ifs at hstart
      obtain rfl := Option.some.inj hstart
      have htask : taskOf s.world i = some m.task := by simp [taskOf, hm]
      refine ⟨some m.task, by simp [workOf, htask], ?_⟩
      unfold runTask
      split
      · rename_i p scenario ht
        rw [ht] at htask ⊢
        exact tells_answer (tells_processPayment hbooked (payment_of_task h htask) m.retries scenario)
      · rename_i q scenario ht
        rw [ht] at htask ⊢
        exact tells_answer (tells_processRefund hbooked (refund_of_task h htask) m.retries scenario)
    · simp at hstart
  | _ =>
    refine ⟨none, rfl, Machine.Leaves.stays (moves_since P) (F := FailuresBooked)
      (fun _ _ hD => hD.booked) (fun out D h => ?_) hbooked⟩
    cases out with
    | error e => exact h
    | ok a =>
      intro t ht
      cases ht

theorem told_of_reachable {s : State P} (h : Reachable P s) {pid : ℕ} {x : Start P}
    {st : Status Write Lock Stmt Block Ext Exn Ans SRes BRes ERes}
    (hp : s.procs[pid]? = some ⟨x, st⟩) :
    ∃ task, workOf s.world x = some task ∧ Machine.StatusLeaves (payflow P) rely (contract P)
      Terms.any Since (Returns (AnswerTold task)) s.db st := by
  have hT : Machine.ReachableBy (payflow P) (Machine.OnTerms (payflow P) Terms.any) (init P) s :=
    h.imp fun s a _ => Machine.onTerms_any s a
  refine hT.leaves (fulfils P) (moves_since P) lasting_answerTold ?_ ?_ (good_init P) rfl
    (fun hr hstart => tells_start (hr.imp fun _ _ _ => trivial) hstart) hp
  · exact fun hx htask => workOf_ext hx htask
  · intro y out w x task htask
    exact (workOf_finish y out w x).trans htask

theorem told_of_done {s : State P} (h : Reachable P s) {pid i : ℕ} {a : Ans} {t : Task}
    (hp : s.procs[pid]? = some ⟨.task i, .done (.ok a)⟩) (ht : taskOf s.world i = some t) :
    ∃ res, a = .task res ∧ TaskTold t s.db res := by
  obtain ⟨task, htask, hend⟩ := told_of_reachable h hp
  obtain rfl : some t = task := by simpa [workOf, ht] using htask
  exact hend t rfl

/-- **The results of the tasks are true**, in every run: whatever a worker has returned for a task
is so when it returns, and stays so. -/
theorem results_true {s : State P} (h : Reachable P s) {pid i : ℕ} {a : Ans} {m : Message}
    (hp : s.procs[pid]? = some ⟨.task i, .done (.ok a)⟩) (hm : s.world.messages[i]? = some m) :
    ∃ res, a = .task res ∧ TaskTold m.task s.db res :=
  told_of_done h hp (by simp [taskOf, hm])

/-- What the process has returned, if it works on the message. -/
def returned (s : State examplePlatform) (pid i : ℕ) : Option TaskResult :=
  match finished s pid i with
  | some (.ok (.task res)) => some res
  | _ => none

theorem procs_of_returned {s : State examplePlatform} {pid i : ℕ} {res : TaskResult}
    (h : returned s pid i = some res) :
    s.procs[pid]? = some ⟨.task i, .done (.ok (.task res))⟩ := by
  unfold returned at h
  split at h
  · rename_i hfinished
    obtain rfl := Option.some.inj h
    exact procs_of_finished hfinished
  · cases h

/-- The task of a refund has returned that it succeeded. -/
theorem results_true_refund : ∃ (s : State examplePlatform) (m : Message),
    s.procs[3]? = some ⟨.task 1, .done (.ok (.task .succeeded))⟩ ∧ s.world.messages[1]? = some m ∧
    ∃ res, Ans.task .succeeded = .task res ∧ TaskTold m.task s.db res := by
  have h : ((payflow examplePlatform).run (init _) (onePayment ++ oneRefund)).map
      (fun s => (returned s 3 1, (s.world.messages[1]?).isSome)) = some (some .succeeded, true) := by
    decide +kernel
  obtain ⟨s, hs, h⟩ := Option.map_eq_some_iff.mp h
  obtain ⟨hres, hm⟩ := Prod.mk.inj h
  obtain ⟨m, hm⟩ := Option.isSome_iff_exists.mp hm
  exact ⟨s, m, procs_of_returned hres, hm, results_true (.run hs) (procs_of_returned hres) hm⟩

end Payflow.Safety
