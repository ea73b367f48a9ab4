import Payflow.Spec.Steps

/-! # The system keeps the contract

Every commit keeps the database well formed and moves it forward (`keep_of_does`), and every program
calls its transactions only where they may be called (`Calls`). With the specifications of the
transactions this is the contract of the system, `fulfils`. -/

namespace Payflow.Spec

open Payflow.Lib Payflow.Model

/-- **A commit** keeps the database well formed and moves it forward. -/
theorem keep_of_does {P : Platform} {b : Block} {now : ℕ} {D : Db} {ws : List Write} {r : BRes b}
    (hi : Inv D) (hreq : Requires b D) (h : Does P b now D ws r) :
    Inv (store.applyAll D ws) ∧ Le D (store.applyAll D ws) := by
  obtain ⟨hinv, hgrown⟩ := keep_of_sound hi (sound_of_does hreq h)
  refine ⟨hinv, hgrown, fun p row row' hp hp' hs => ?_⟩
  rcases pending_of_does hreq h hp hp' hs with hs | ⟨id, hids⟩
  · exact Or.inl hs
  · have hlen := congrArg List.length hids
    simp only [refundIds, List.length_append, List.length_map, List.length_cons,
      List.length_nil] at hlen
    exact Or.inr (by omega)

/-! ### The programs -/

/-- From the database `D` on, the program calls every transaction where it may be called. -/
abbrev Calls (P : Platform) {α : Type} (p : Proc α) (D : Db) : Prop :=
  Machine.Keeps (payflow P) rely (contract P) p D

section programs

variable {P : Platform} {α : Type} {D : Db}

theorem calls_txn {b : Block} {k : BRes b → Proc α} (hreq : ∀ D, Requires b D)
    (hk : ∀ r D, Calls P (k r) D) : Calls P ((txn b).bind k) D :=
  .txn (fun D' _ _ => hreq D') (fun _ _ _ r _ _ _ => hk r _) fun _ _ _ _ _ => trivial

theorem calls_retry (task : Task) (retries : ℕ) : Calls P (retry (α := α) task retries) D :=
  fun _ => trivial

theorem calls_delay {task : Task} {k : Unit → Proc α} (hk : ∀ D, Calls P (k ()) D) :
    Calls P ((delay task).bind k) D := by
  rintro (_ | _)
  · trivial
  · exact hk D

theorem calls_redisSet {key token : String} {k : Option Bool → Proc α}
    (hk : ∀ r D, Calls P (k r) D) : Calls P ((redisSet key token).bind k) D :=
  fun r => hk r D

theorem calls_acquirePaymentLock {m k : String} {body : Bool → Proc α}
    (hbody : ∀ acquired D, Calls P (body acquired) D) :
    Calls P (acquirePaymentLock m k body) D := by
  intro token
  refine calls_redisSet fun reply D => ?_
  refine Machine.Keeps.bind (Machine.Keeps.handle (Machine.Keeps.bind (hbody _ D) ?_) ?_) ?_
  · exact fun _ _ => trivial
  · exact fun _ _ => trivial
  · intro r D
    refine Machine.Keeps.bind (Machine.Keeps.ite (fun _ _ => trivial) fun _ =>
      trivial) fun _ D => ?_
    cases r <;> trivial

theorem calls_createPayment (call : CreatePayment P) : Calls P (createPayment P call) D := by
  have hpay : Calls P (createIdempotentPayment P call.merchantId call.idempotencyKey
      call.request.userId call.request.amountCents call.request.currency) D := by
    unfold createIdempotentPayment
    refine calls_acquirePaymentLock fun acquired D => ?_
    refine Machine.Keeps.ite (fun _ => ?_) fun _ => calls_txn (k := .pure) (fun _ => trivial)
      fun _ _ => trivial
    refine calls_txn (fun _ => trivial) fun existing D => ?_
    cases existing with
    | none => trivial
    | some existing => exact Machine.Keeps.ite (fun _ => trivial) fun _ => trivial
  refine Machine.Keeps.bind hpay fun ⟨payment, duplicate⟩ D => ?_
  exact Machine.Keeps.ite (fun _ => calls_delay fun _ => trivial) fun _ => trivial

theorem calls_createRefund (call : CreateRefund) : Calls P (createRefund call) D := by
  refine calls_txn (fun _ => trivial) fun ⟨refund, duplicate⟩ D => ?_
  exact Machine.Keeps.ite (fun _ => trivial) fun _ => calls_delay fun _ => trivial

theorem calls_receiveProviderWebhook (call : ReceiveWebhook) :
    Calls P (receiveProviderWebhook P call) D := by
  refine Machine.Keeps.ofExcept fun verified _ => Machine.Keeps.ite (fun _ => trivial) fun _ => ?_
  cases P.jsonLoads call.rawBody with
  | error e => cases e <;> trivial
  | ok payload =>
    refine Machine.Keeps.ofExcept fun complete _ => Machine.Keeps.ite (fun _ => trivial) fun _ => ?_
    refine Machine.Keeps.ofExcept fun status _ => Machine.Keeps.ofExcept fun supported _ => ?_
    exact Machine.Keeps.ite (fun _ => trivial) fun _ => calls_txn (k := .pure) (fun _ => trivial)
      fun _ _ => trivial

/-! ### process_payment -/

theorem calls_providerResponse {transient : String} {unavailable : ℕ → String}
    {rejected : ℕ → String → String} {out : HttpOutcome} :
    Calls P (providerResponse transient unavailable rejected out) D := by
  cases out with
  | response statusCode text json =>
    refine Machine.Keeps.ite (fun _ => trivial) fun _ =>
      Machine.Keeps.ite (fun _ => trivial) fun _ => ?_
    cases json <;> trivial
  | _ => trivial

theorem calls_recordTransition {p : Uuid} {type : EventType} {new : PaymentStatus}
    {provider : Json} {failure : Option String} {k : Unit → Proc α}
    (hmove : (type, new) ∈ paymentMoves) (hk : ∀ r D, Calls P (k r) D) :
    Calls P ((txn (.recordTransition p type new provider failure)).bind k) D :=
  calls_txn (fun _ => hmove) hk

theorem calls_processPaymentTry (p : Uuid) (payment : Payment) (scenario : Scenario) :
    Calls P (processPaymentTry p payment scenario) D := by
  refine Machine.Keeps.bind (fun out => calls_providerResponse) fun result D => ?_
  refine Machine.Keeps.ofExcept fun status _ => Machine.Keeps.ofExcept fun provider _ => ?_
  refine Machine.Keeps.ite (fun _ => ?_) fun _ => Machine.Keeps.ite (fun _ => ?_) fun _ => ?_
  · exact calls_recordTransition (by simp [paymentMoves]) fun _ _ => trivial
  · exact calls_txn (fun _ => trivial) fun _ _ => trivial
  · exact calls_recordTransition (by simp [paymentMoves]) fun _ _ => trivial

theorem calls_processPaymentExcept (retries : ℕ) (p : Uuid) (scenario : Scenario) (e : Exn) :
    Calls P (processPaymentExcept retries p scenario e) D := by
  cases e with
  | transientProviderError message =>
    refine calls_txn (fun _ => trivial) fun _ D => Machine.Keeps.ite (fun _ => ?_) fun _ => ?_
    · exact calls_recordTransition (by simp [paymentMoves]) fun _ _ => trivial
    · exact calls_retry _ _
  | permanentProviderError message =>
    exact calls_recordTransition (by simp [paymentMoves]) fun _ _ => trivial
  | _ => trivial

theorem calls_processPayment (retries : ℕ) (p : Uuid) (scenario : Scenario) :
    Calls P (processPayment retries p scenario) D := by
  refine calls_txn (fun _ => trivial) fun payment D => ?_
  cases payment with
  | none => trivial
  | some payment =>
    refine Machine.Keeps.ite (fun _ => trivial) fun _ =>
      Machine.Keeps.ite (fun _ => trivial) fun _ => ?_
    have hrest : ∀ D, Calls P ((processPaymentTry p payment scenario).handle
        (processPaymentExcept retries p scenario)) D := fun D =>
      Machine.Keeps.handle (calls_processPaymentTry p payment scenario)
        fun e D => calls_processPaymentExcept retries p scenario e
    refine Machine.Keeps.ite (fun _ => ?_) fun _ => hrest D
    exact calls_recordTransition (by simp [paymentMoves]) fun _ D => hrest D

/-! ### process_refund -/

/-- A refund that a transition has brought to its last status keeps it. -/
theorem status_of_recordRefundTransition {now : ℕ} {D D' : Db} {ws : List Write} {q : Uuid}
    {type : EventType} {new : RefundStatus} (hfinal : new = .succeeded ∨ new = .failed)
    {failure : Option String} (h : RecordRefundTransitionCommit now D ws q type new failure)
    (hle : Le (store.applyAll D ws) D') :
    ∃ refund, D'.refund? q = some refund ∧ refund.status = new := by
  have hlast : ∃ refund, (store.applyAll D ws).refund? q = some refund ∧ refund.status = new := by
    obtain ⟨row, hrow, ⟨hs, rfl⟩ | ⟨-, prov, event, outbox, rfl⟩⟩ := h
    · exact ⟨row, hrow, hs⟩
    · obtain rfl := refund_id hrow
      exact ⟨_, refund?_update_self hrow _, rfl⟩
  obtain ⟨row, hrow, rfl⟩ := hlast
  obtain ⟨row', hrow', cols, rfl, hs⟩ := hle.refund hrow
  refine ⟨_, hrow', ?_⟩
  rcases hs with hs | hs | ⟨hs, -⟩
  · exact hs.symm
  · simp [hs] at hfinal
  · simp [hs] at hfinal

theorem calls_recordRefundTransition {q : Uuid} {type : EventType} {new : RefundStatus}
    {provider : Json} {failure : Option String} {k : Unit → Proc α}
    (hmove : (type, new) ∈ refundMoves ∧ failure.isSome = decide (new = .failed))
    (hk : ∀ r D, Calls P (k r) D) :
    Calls P ((txn (.recordRefundTransition q type new provider failure)).bind k) D :=
  calls_txn (fun _ => hmove) hk

theorem calls_succeed {q : Uuid} {provider : Json} {a : α} :
    Calls P ((txn (.recordRefundTransition q .refundSucceeded .succeeded provider none)).bind
      fun _ => (txn (.completeSuccessfulRefund q)).bind fun _ => .pure a) D := by
  refine .txn (fun _ _ _ => by simp [contract, Requires, refundMoves]) (fun D₁ now ws r _ _ h => ?_)
    fun _ _ _ _ _ => trivial
  exact .txn (fun D₂ hle _ => status_of_recordRefundTransition (Or.inl rfl) h hle)
    (fun _ _ _ _ _ _ _ => trivial) fun _ _ _ _ _ => trivial

theorem calls_fail {q : Uuid} {provider : Json} {failure : String} {a : α} :
    Calls P ((txn (.recordRefundTransition q .refundFailed .failed provider (some failure))).bind
      fun _ => (txn (.restorePaymentAfterFailedRefund q)).bind fun _ => .pure a) D := by
  refine .txn (fun _ _ _ => by simp [contract, Requires, refundMoves]) (fun D₁ now ws r _ _ h => ?_)
    fun _ _ _ _ _ => trivial
  exact .txn (fun D₂ hle _ => status_of_recordRefundTransition (Or.inr rfl) h hle)
    (fun _ _ _ _ _ _ _ => trivial) fun _ _ _ _ _ => trivial

theorem calls_processRefundTry (q : Uuid) (refund : Refund) (scenario : RefundScenario) :
    Calls P (processRefundTry q refund scenario) D := by
  refine calls_txn (fun _ => trivial) fun payment D => ?_
  cases payment.bind (·.providerPaymentId) with
  | none => trivial
  | some providerPaymentId =>
    refine Machine.Keeps.bind (fun out => calls_providerResponse) fun result D => ?_
    refine Machine.Keeps.ofExcept fun status _ => Machine.Keeps.ofExcept fun provider _ => ?_
    exact Machine.Keeps.ite (fun _ => calls_succeed) fun _ => calls_fail

theorem calls_processRefundExcept (retries : ℕ) (q : Uuid) (scenario : RefundScenario) (e : Exn) :
    Calls P (processRefundExcept retries q scenario e) D := by
  cases e with
  | transientProviderError message =>
    exact calls_txn (fun _ => trivial) fun _ D =>
      Machine.Keeps.ite (fun _ => calls_fail) fun _ => calls_retry _ _
  | permanentProviderError message => exact calls_fail
  | _ => trivial

theorem calls_processRefund (retries : ℕ) (q : Uuid) (scenario : RefundScenario) :
    Calls P (processRefund retries q scenario) D := by
  refine calls_txn (fun _ => trivial) fun refund D => ?_
  cases refund with
  | none => trivial
  | some refund =>
    refine Machine.Keeps.ite (fun _ => trivial) fun _ =>
      Machine.Keeps.ite (fun _ => trivial) fun _ => ?_
    have hrest : ∀ D, Calls P ((processRefundTry q refund scenario).handle
        (processRefundExcept retries q scenario)) D := fun D =>
      Machine.Keeps.handle (calls_processRefundTry q refund scenario)
        fun e D => calls_processRefundExcept retries q scenario e
    refine Machine.Keeps.ite (fun _ => ?_) fun _ => hrest D
    exact calls_recordRefundTransition (by simp [refundMoves]) fun _ D => hrest D

/-! ### reconcile_processing_payments -/

theorem calls_reconcileLoop : ∀ (payments : List Payment) (counts : Reconciled) (D : Db),
    Calls P (reconcileLoop payments counts) D
  | [], _, _ => trivial
  | payment :: payments, counts, D => by
    have htry : Calls P (tryGetProviderPayment (payment.providerPaymentId.getD "None")) D := by
      refine Machine.Keeps.handle (Machine.Keeps.bind (fun out => calls_providerResponse)
        fun _ _ => trivial) fun e D => ?_
      cases e <;> trivial
    refine Machine.Keeps.bind htry fun answer D => ?_
    cases answer with
    | none => exact calls_reconcileLoop payments _ D
    | some providerPayment =>
      refine Machine.Keeps.ofExcept fun status _ => Machine.Keeps.ofExcept fun final _ => ?_
      refine Machine.Keeps.ite (fun _ => calls_reconcileLoop payments _ D) fun _ => ?_
      refine calls_txn (fun _ => ?_) fun corrected D => calls_reconcileLoop payments _ D
      show (if status.isStr "SUCCEEDED" then PaymentStatus.succeeded else .failed) = _ ∨ _
      split_ifs
      · exact Or.inl rfl
      · exact Or.inr rfl

theorem calls_reconcileProcessingPayments : Calls P reconcileProcessingPayments D :=
  calls_txn (fun _ => trivial) fun payments D => calls_reconcileLoop payments _ D

theorem calls_start {w : World} {x : Start P} {p : Proc Ans} (h : start P w x = some p) (D : Db) :
    Calls P p D := by
  cases x with
  | createPayment call =>
    obtain rfl := Option.some.inj h
    exact Machine.Keeps.bind (calls_createPayment call) fun _ _ => trivial
  | createRefund call =>
    obtain rfl := Option.some.inj h
    exact Machine.Keeps.bind (calls_createRefund call) fun _ _ => trivial
  | receiveProviderWebhook call =>
    obtain rfl := Option.some.inj h
    exact Machine.Keeps.bind (calls_receiveProviderWebhook call) fun _ _ => trivial
  | reconcilePayments =>
    obtain rfl := Option.some.inj h
    exact Machine.Keeps.bind calls_reconcileProcessingPayments fun _ _ => trivial
  | task i =>
    simp only [start] at h
    split at h
    · split_ifs at h
      obtain rfl := Option.some.inj h
      rename_i m _ _
      refine Machine.Keeps.bind ?_ fun _ _ => trivial
      unfold runTask
      split
      · exact calls_processPayment m.retries _ _
      · exact calls_processRefund m.retries _ _
    · simp at h

end programs

/-! ### The contract of the system -/

theorem body_meets (P : Platform) (b : Block) (now : ℕ) (D : Db) (hreq : Requires b D) :
    Meets store rely (Does P b) (Fails b) now (body P b) [] [] D := by
  cases b with
  | getExistingPayment m k =>
    exact meets_select (s := .selectPaymentByKey m k) (f := fun _ _ D => D.paymentByKey? m k)
      (fun _ _ => rfl) (fun _ _ => rfl) fun _ _ ho => ⟨rfl, ho.imp fun _ ⟨_, h⟩ => h⟩
  | getPayment p =>
    exact meets_select (s := .selectPayment p) (f := fun _ _ D => D.payment? p)
      (fun _ _ => rfl) (fun _ _ => rfl) fun _ _ ho => ⟨rfl, ho.imp fun _ ⟨_, h⟩ => h⟩
  | selectProviderPaymentId p =>
    exact meets_select (s := .selectPayment p) (f := fun _ _ D => D.payment? p)
      (fun _ _ => rfl) (fun _ _ => rfl) fun _ _ ho => ⟨rfl, ho.imp fun _ ⟨_, h⟩ => h⟩
  | getRefund q =>
    exact meets_select (s := .selectRefund q) (f := fun _ _ D => D.refund? q)
      (fun _ _ => rfl) (fun _ _ => rfl) fun _ _ ho => ⟨rfl, ho.imp fun _ ⟨_, h⟩ => h⟩
  | reconcileSelect =>
    exact meets_select (s := .selectProcessingPayments)
      (f := fun pick now D => processingPayments pick.tie now D) (fun _ _ => rfl) (fun _ _ => rfl)
      fun _ _ ho => ⟨rfl, ho.imp fun _ ⟨pick, h⟩ => ⟨pick.tie, h⟩⟩
  | createIdempotentPayment m k h u a c => exact meets_createIdempotentPayment m k h u a c
  | recordTransition p type new provider failure =>
    exact meets_recordTransition p type new provider failure
  | recordAwaitingWebhook p provider => exact meets_recordAwaitingWebhook p provider
  | recordRetry p reason => exact meets_recordRetry p reason
  | receiveProviderWebhook payload => exact meets_receiveProviderWebhook payload
  | reconcileOne p status => exact meets_reconcileOne p status
  | createRefund p m k a => exact meets_createRefund p m k a
  | recordRefundTransition q type new provider failure =>
    exact meets_recordRefundTransition q type new provider failure
  | recordRefundRetry q reason => exact meets_recordRefundRetry q reason
  | completeSuccessfulRefund q =>
    obtain ⟨refund, hq, -⟩ := hreq
    exact meets_completeSuccessfulRefund q hq
  | restorePaymentAfterFailedRefund q =>
    obtain ⟨refund, hq, -⟩ := hreq
    exact meets_restorePaymentAfterFailedRefund q hq

/-- **The contract of the system.** -/
theorem fulfils (P : Platform) : (payflow P).Fulfils rely (contract P) where
  rely := rely_lawful
  keep hi hreq hdoes := keep_of_does hi hreq hdoes
  body b now D _ hreq := body_meets P b now D hreq
  start h D _ := calls_start h D

theorem inv_empty : Inv Db.empty := by
  refine ⟨by simp [Db.empty], by simp [Db.empty], by simp [Db.empty], by simp [Db.empty], ?_, ?_⟩
  · simp [Db.empty]
  · simp [Db.empty]

theorem good_init (P : Platform) : Machine.Good (payflow P) rely (contract P) (init P) :=
  .init inv_empty _ _

end Payflow.Spec
