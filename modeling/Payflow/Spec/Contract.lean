import Payflow.Spec.Rely
import Payflow.Model.System
import Payflow.Lib.Atomic

/-! # What the transactions do

For each transaction its effect at the moment of its commit: what must be true of the committed
database, what is written and what is returned. `Once D p` marks what a statement without a lock
has seen: it was true of a committed database at some time before. `Requires` is what the code
relies on when it calls a transaction, `Fails` how a transaction may roll back. -/

namespace Payflow.Spec

open Payflow.Lib Payflow.Model

/-- It was true of a committed database before. -/
def Once (D : Db) (p : Db → Prop) : Prop := ∃ D₀, Inv D₀ ∧ Le D₀ D ∧ p D₀

/-- A new row of `outbox_events`. -/
def newOutboxEvent (now : ℕ) (id aggregateId : Uuid) (eventType : EventType) (payload : Json) :
    OutboxEvent :=
  ⟨id, aggregateId, eventType, payload, .pending, 0, now, now, none⟩

/-! ### Payments -/

section payments

variable (now : ℕ) (D : Db) (ws : List Write)

/-- The new payment, or the one that has the key and the request. -/
def CreateIdempotentPaymentCommit (m k hash user : String) (amount : ℕ) (currency : String)
    (r : Payment × Bool) : Prop :=
  (∃ id event c, D.paymentByKey? m k = none ∧ D.payment? id = none ∧ 0 < amount ∧
    varchar 3 currency = .ok c ∧ r = (newPayment now id m k hash user amount c, false) ∧
    ws = [.insertPayment r.1, .insertPaymentEvent
      ⟨event, id, .paymentCreated, none, .created, .obj [], now⟩]) ∨
  (∃ row, Once D (fun D₀ => D₀.paymentByKey? m k = some row) ∧ row.requestHash = hash ∧
    r = (row, true) ∧ ws = [])

/-- The writes of a permitted transition. -/
def transitionWrites (row : Payment) (eventType : EventType) (newStatus : PaymentStatus)
    (provider failure : Option String) (event outbox : Uuid) : List Write :=
  [.updatePayment row.id
      { row.toPaymentCols with
        status := newStatus
        providerPaymentId := provider <|> row.providerPaymentId
        failureCode := failure
        version := row.version + 1
        updatedAt := now },
    .insertPaymentEvent
      ⟨event, row.id, eventType, some row.status, newStatus, .obj [], now⟩,
    .insertOutboxEvent (newOutboxEvent now outbox row.id eventType (.obj
      [("payment_id", .str row.id.text), ("previous_status", .str row.status.text),
        ("new_status", .str newStatus.text)]))]

/-- A permitted transition, or none where the payment is there already. -/
def RecordTransitionCommit (P : Platform) (p : Uuid) (eventType : EventType)
    (newStatus : PaymentStatus) (providerPaymentId : Json) (failureCode : Option String) : Prop :=
  ∃ row, D.payment? p = some row ∧
    ((row.status = newStatus ∧ ws = []) ∨
    (newStatus ∈ validTransitions row.status ∧ ∃ provider failure event outbox,
      providerPaymentId.textParam P = .ok provider ∧
        (textOption failureCode).textParam P = .ok failure ∧
      ws = transitionWrites now row eventType newStatus provider failure event outbox))

/-- The provider's id is noted on a payment that is processed. -/
def RecordAwaitingWebhookCommit (P : Platform) (p : Uuid) (providerPaymentId : Json) : Prop :=
  ∃ row, D.payment? p = some row ∧
    ((row.status ≠ .processing ∧ ws = []) ∨
    (row.status = .processing ∧ ∃ provider event, providerPaymentId.assignText P = .ok provider ∧
      ws = [.updatePayment p { row.toPaymentCols with providerPaymentId := provider, updatedAt := now },
        .insertPaymentEvent
          ⟨event, p, .paymentAwaitingWebhook, some .processing, .processing, .obj [], now⟩]))

/-- A retry is counted on a payment that is processed. -/
def RecordRetryCommit (p : Uuid) (reason : String) : Prop :=
  ∃ row, D.payment? p = some row ∧
    ((row.status ≠ .processing ∧ ws = []) ∨
    (row.status = .processing ∧ ∃ event,
      ws = [.updatePayment p
          { row.toPaymentCols with
            retryCount := row.retryCount + 1
            failureCode := some (firstTwoHundred reason)
            updatedAt := now },
        .insertPaymentEvent ⟨event, p, .paymentRetryScheduled, some .processing, .processing, .obj
          [("reason", .str (firstTwoHundred reason)),
            ("retry_number", .int (row.retryCount + 1 : ℕ))],
          now⟩]))

/-- The status a webhook reports. -/
def webhookStatus (status : Json) : PaymentStatus :=
  if status.isStr "SUCCEEDED" then .succeeded else .failed

/-- The row of a webhook event. -/
def webhookRow (P : Platform) (payload : Json) (row : WebhookEvent) : Prop :=
  ∃ eventId eventType, payload.getItem "event_id" = .ok eventId ∧
    eventId.assignText P = .ok (some row.providerEventId) ∧
    payload.getItem "event_type" = .ok eventType ∧
      eventType.assignText P = .ok (some row.eventType) ∧
    row.payload = payload ∧ row.processedAt = now

/-- The writes of a webhook that decides a payment. -/
def webhookWrites (row : Payment) (newStatus : PaymentStatus) (provider : Option String)
    (eventId paymentIdField : Json) (event outbox : Uuid) : List Write :=
  let eventType := if newStatus = .succeeded then EventType.paymentSucceeded else .paymentFailed
  [.updatePayment row.id
      { row.toPaymentCols with
        status := newStatus
        providerPaymentId := provider
        failureCode := if newStatus = .failed then some "PROVIDER_WEBHOOK_FAILURE" else none
        version := row.version + 1
        updatedAt := now },
    .insertPaymentEvent ⟨event, row.id, eventType, some row.status, newStatus, .obj
      [("source", .str "provider_webhook"), ("provider_event_id", eventId)], now⟩,
    .insertOutboxEvent (newOutboxEvent now outbox row.id eventType (.obj
      [("payment_id", paymentIdField), ("status", .str newStatus.text),
        ("source", .str "provider_webhook")]))]

/-- A webhook is ignored, noted, or decides a payment that is processed. -/
def ReceiveProviderWebhookCommit (P : Platform) (payload : Json) (r : WebhookAnswer) : Prop :=
  (∃ eventId, r = .duplicateIgnored eventId ∧ ws = []) ∨
  ∃ w eventId paymentIdField p row status, webhookRow now P payload w ∧
    D.webhookEvents.all (fun w' => w'.providerEventId ≠ w.providerEventId) ∧
    payload.getItem "event_id" = .ok eventId ∧ payload.getItem "payment_id" = .ok paymentIdField ∧
    paymentIdField.uuidParam P = .ok (some p) ∧ D.payment? p = some row ∧
    payload.getItem "status" = .ok status ∧
    ((r = .alreadyFinalized eventId ∧ (row.status = .succeeded ∨ row.status = .refunded) ∧
      ws = [.insertWebhookEvent w]) ∨
    (r = .processed eventId (webhookStatus status) ∧ row.status = .processing ∧
      ∃ provider event outbox, (∃ field, payload.getItem "provider_payment_id" = .ok field ∧
        field.assignText P = .ok provider) ∧ ws = .insertWebhookEvent w ::
          webhookWrites now row (webhookStatus status) provider eventId paymentIdField event outbox))

/-- The writes of a reconciliation that corrects a payment. -/
def reconcileWrites (row : Payment) (providerStatus : PaymentStatus) (event outbox : Uuid) :
    List Write :=
  let eventType := if providerStatus = .succeeded then EventType.paymentReconciledSucceeded
    else .paymentReconciledFailed
  [.updatePayment row.id
      { row.toPaymentCols with
        status := providerStatus
        failureCode := if providerStatus = .failed then some "RECONCILED_PROVIDER_FAILURE" else none
        version := row.version + 1
        updatedAt := now },
    .insertPaymentEvent ⟨event, row.id, eventType, some .processing, providerStatus, .obj
      [("source", .str "reconciliation")], now⟩,
    .insertOutboxEvent (newOutboxEvent now outbox row.id eventType (.obj
      [("payment_id", .str row.id.text), ("status", .str providerStatus.text),
        ("source", .str "reconciliation")]))]

/-- A payment that is still processed is corrected. -/
def ReconcileOneCommit (p : Uuid) (providerStatus : PaymentStatus) (r : Bool) : Prop :=
  (r = false ∧ ws = []) ∨
  (r = true ∧ ∃ row event outbox, D.payment? p = some row ∧ row.status = .processing ∧
    ws = reconcileWrites now row providerStatus event outbox)

end payments

/-! ### Refunds -/

section refunds

variable (now : ℕ) (D : Db) (ws : List Write)

/-- The writes of a new refund. -/
def createRefundWrites (row : Payment) (refund : Refund) (e₁ e₂ e₃ : Uuid) : List Write :=
  [.insertRefund refund,
    .updatePayment row.id
      { row.toPaymentCols with
        status := .refundPending, version := row.version + 1, updatedAt := now },
    .insertRefundEvent ⟨e₁, refund.id, .refundCreated, none, .created, .obj
      [("amount_cents", .int refund.amountCents)], now⟩,
    .insertPaymentEvent ⟨e₂, row.id, .paymentRefundPending, some .succeeded, .refundPending, .obj
      [("refund_id", .str refund.id.text), ("amount_cents", .int refund.amountCents)], now⟩,
    .insertOutboxEvent (newOutboxEvent now e₃ refund.id .refundCreated (.obj
      [("refund_id", .str refund.id.text), ("payment_id", .str row.id.text),
        ("amount_cents", .int refund.amountCents)]))]

/-- A new refund of a payment that has succeeded, within what is left of it, or the refund that has
the key. -/
def CreateRefundCommit (p : Uuid) (m k : String) (amount : ℕ) (r : Refund × Bool) : Prop :=
  (∃ row id c e₁ e₂ e₃, D.refundByKey? m k = none ∧ D.refund? id = none ∧
    D.payment? p = some row ∧ row.merchantId = m ∧ row.status = .succeeded ∧
    row.providerPaymentId ≠ none ∧ D.refundTotal reservedStatuses p + amount ≤ row.amountCents ∧
    0 < amount ∧ varchar 3 row.currency = .ok c ∧ r = (newRefund now id p m k amount c, false) ∧
    ws = createRefundWrites now row r.1 e₁ e₂ e₃) ∨
  (∃ refund, Once D (fun D₀ => D₀.refundByKey? m k = some refund) ∧ r = (refund, true) ∧ ws = [])

/-- The writes of a permitted transition of a refund. -/
def refundTransitionWrites (refund : Refund) (eventType : EventType) (newStatus : RefundStatus)
    (provider failure : Option String) (event outbox : Uuid) : List Write :=
  [.updateRefund refund.id
      { refund.toRefundCols with
        status := newStatus
        providerRefundId := provider <|> refund.providerRefundId
        failureCode := failure
        updatedAt := now },
    .insertRefundEvent
      ⟨event, refund.id, eventType, some refund.status, newStatus, .obj [], now⟩,
    .insertOutboxEvent (newOutboxEvent now outbox refund.id eventType (.obj
      [("refund_id", .str refund.id.text), ("payment_id", .str refund.paymentId.text),
        ("previous_status", .str refund.status.text), ("new_status", .str newStatus.text)]))]

/-- A permitted transition, or none where the refund is there already. -/
def RecordRefundTransitionCommit (r : Uuid) (eventType : EventType) (newStatus : RefundStatus)
    (failureCode : Option String) : Prop :=
  ∃ refund, D.refund? r = some refund ∧
    ((refund.status = newStatus ∧ ws = []) ∨
    (newStatus ∈ validRefundTransitions refund.status ∧ ∃ provider event outbox,
      ws = refundTransitionWrites now refund eventType newStatus provider failureCode event outbox))

/-- A retry is counted on a refund that is processed. -/
def RecordRefundRetryCommit (r : Uuid) (reason : String) : Prop :=
  ws = [] ∨ ∃ refund event, D.refund? r = some refund ∧ refund.status = .processing ∧
    ws = [.updateRefund r
        { refund.toRefundCols with
          retryCount := refund.retryCount + 1
          failureCode := some (firstTwoHundred reason)
          updatedAt := now },
      .insertRefundEvent ⟨event, r, .refundRetryScheduled, some .processing, .processing, .obj
        [("reason", .str (firstTwoHundred reason)),
          ("retry_number", .int (refund.retryCount + 1 : ℕ))],
        now⟩]

/-- The status that a payment gets when a refund of it has succeeded. -/
def statusAfterRefund (total amount : ℕ) : PaymentStatus :=
  if total ≥ amount then .refunded else .succeeded

/-- The event of it. -/
def eventAfterRefund (total amount : ℕ) : EventType :=
  if total ≥ amount then .paymentRefunded else .paymentPartiallyRefunded

/-- The writes that complete a refund. -/
def completeWrites (row : Payment) (r : Uuid) (total : ℕ) (event outbox : Uuid) : List Write :=
  let newStatus := statusAfterRefund total row.amountCents
  let eventType := eventAfterRefund total row.amountCents
  [.updatePayment row.id
      { row.toPaymentCols with status := newStatus, version := row.version + 1, updatedAt := now },
    .insertPaymentEvent ⟨event, row.id, eventType, some row.status, newStatus, .obj
      [("refund_id", .str r.text), ("total_refunded_cents", .int total)], now⟩,
    .insertOutboxEvent (newOutboxEvent now outbox row.id eventType (.obj
      [("payment_id", .str row.id.text), ("refund_id", .str r.text),
        ("status", .str newStatus.text), ("total_refunded_cents", .int total)]))]

/-- The payment gets the status that follows from a total of its refunds that is not too high, and
not too low for a payment that is refunded already. -/
def CompleteSuccessfulRefundCommit (r : Uuid) : Prop :=
  ∃ refund row total event outbox, D.refund? r = some refund ∧
    D.payment? refund.paymentId = some row ∧ total ≤ D.refundTotal [.succeeded] row.id ∧
    (row.status = .refunded → row.amountCents ≤ total) ∧
    ws = completeWrites now row r total event outbox

/-- The payment of a refund that has failed is released, if it waits for a refund. -/
def RestorePaymentAfterFailedRefundCommit (r : Uuid) : Prop :=
  (ws = [] ∧ Once D fun D₀ => ∃ refund, D₀.refund? r = some refund ∧
    ∀ row, D₀.payment? refund.paymentId = some row → row.status ≠ .refundPending) ∨
  ∃ refund row, D.refund? r = some refund ∧ D.payment? refund.paymentId = some row ∧
    row.status = .refundPending ∧
    ws = [.updatePayment row.id
      { row.toPaymentCols with status := .succeeded, version := row.version + 1, updatedAt := now }]

end refunds

/-! ### The contract -/

/-- The event types that `process_payment` pairs with the statuses it moves a payment to. -/
def paymentMoves : List (EventType × PaymentStatus) :=
  [(.paymentProcessing, .processing), (.paymentSucceeded, .succeeded), (.paymentFailed, .failed)]

/-- The event types that `process_refund` pairs with the statuses it moves a refund to. -/
def refundMoves : List (EventType × RefundStatus) :=
  [(.refundProcessing, .processing), (.refundSucceeded, .succeeded), (.refundFailed, .failed)]

/-- What the code relies on when it calls a transaction. -/
def Requires : Block → Db → Prop
  | .recordTransition _ type new _ _, _ => (type, new) ∈ paymentMoves
  | .reconcileOne _ status, _ => status = .succeeded ∨ status = .failed
  | .recordRefundTransition _ type new _ failure, _ =>
    (type, new) ∈ refundMoves ∧ failure.isSome = decide (new = .failed)
  | .completeSuccessfulRefund r, D =>
    ∃ refund, D.refund? r = some refund ∧ refund.status = .succeeded
  | .restorePaymentAfterFailedRefund r, D =>
    ∃ refund, D.refund? r = some refund ∧ refund.status = .failed
  | _, _ => True

/-- What a transaction does when it commits. -/
def Does (P : Platform) : (b : Block) → ℕ → Db → List Write → BRes b → Prop
  | .getExistingPayment m k, _, D, ws, r => ws = [] ∧ Once D fun D₀ => D₀.paymentByKey? m k = r
  | .createIdempotentPayment m k h u a c, now, D, ws, r =>
    CreateIdempotentPaymentCommit now D ws m k h u a c r
  | .getPayment p, _, D, ws, r => ws = [] ∧ Once D fun D₀ => D₀.payment? p = r
  | .recordTransition p type new provider failure, now, D, ws, _ =>
    RecordTransitionCommit now D ws P p type new provider failure
  | .recordAwaitingWebhook p provider, now, D, ws, _ =>
    RecordAwaitingWebhookCommit now D ws P p provider
  | .recordRetry p reason, now, D, ws, _ => RecordRetryCommit now D ws p reason
  | .receiveProviderWebhook payload, now, D, ws, r =>
    ReceiveProviderWebhookCommit now D ws P payload r
  | .reconcileSelect, now, D, ws, r =>
    ws = [] ∧ Once D fun D₀ => ∃ tie, processingPayments tie now D₀ = r
  | .reconcileOne p status, now, D, ws, r => ReconcileOneCommit now D ws p status r
  | .createRefund p m k a, now, D, ws, r => CreateRefundCommit now D ws p m k a r
  | .getRefund q, _, D, ws, r => ws = [] ∧ Once D fun D₀ => D₀.refund? q = r
  | .recordRefundTransition q type new _ failure, now, D, ws, _ =>
    RecordRefundTransitionCommit now D ws q type new failure
  | .recordRefundRetry q reason, now, D, ws, _ => RecordRefundRetryCommit now D ws q reason
  | .completeSuccessfulRefund q, now, D, ws, _ => CompleteSuccessfulRefundCommit now D ws q
  | .restorePaymentAfterFailedRefund q, now, D, ws, _ =>
    RestorePaymentAfterFailedRefundCommit now D ws q
  | .selectProviderPaymentId p, _, D, ws, r => ws = [] ∧ Once D fun D₀ => D₀.payment? p = r

/-- An exception that no transaction raises. -/
def isProviderError : Exn → Bool
  | .transientProviderError _ | .permanentProviderError _ => true
  | _ => false

/-- How a transaction rolls back, and on what database; the two that end a refund do not. -/
def Fails : Block → Db → Exn → Prop
  | .createIdempotentPayment m k h _ _ _, D, e => isDatabaseError e = true ∨
    (e = keyReused ∧ ∃ row, D.paymentByKey? m k = some row ∧ row.requestHash ≠ h)
  | .completeSuccessfulRefund _, _, _ | .restorePaymentAfterFailedRefund _, _, _ => False
  | _, _, e => isProviderError e = false

/-- The contract of the transactions. -/
def contract (P : Platform) : Contract Db Write Block Exn BRes := ⟨Requires, Does P, Fails⟩

end Payflow.Spec
