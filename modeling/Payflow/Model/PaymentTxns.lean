import Payflow.Model.Sql

/-! # The transactions on payments

The `with get_connection()` blocks of `payment_service.py`, `tasks.py`, `webhooks.py` and
`reconciliation.py`, under the names of the functions they are in. -/

namespace Payflow.Model

open Payflow.Lib

/-- `status_code` 409 for a key that came with another request. -/
def keyReused : Exn :=
  .httpException 409 (.str "Idempotency key was already used with a different request")

/-! ### payment_service.py -/

def getExistingPayment (merchantId idempotencyKey : String) : Tx (Option Payment) :=
  selectPaymentByKey merchantId idempotencyKey

/-- The transaction of `create_idempotent_payment`; `true` marks a duplicate. The payment's id is
drawn right before the transaction begins. -/
def createIdempotentPaymentTxn (merchantId idempotencyKey requestHash userId : String)
    (amountCents : ℕ) (currency : String) : Tx (Payment × Bool) := do
  let paymentId ← uuid4
  match ← insertPayment paymentId merchantId idempotencyKey requestHash userId amountCents currency with
  | some inserted =>
    insertPaymentEvent paymentId .paymentCreated none .created (.obj [])
    return (inserted, false)
  | none =>
    match ← selectPaymentByKey merchantId idempotencyKey with
    | none => .raise (.httpException 500 (.str "Unable to retrieve the existing payment"))
    | some existing =>
      if existing.requestHash ≠ requestHash then .raise keyReused
      else return (existing, true)

/-! ### tasks.py -/

def getPayment (paymentId : Uuid) : Tx (Option Payment) := selectPayment paymentId

/-- `valid_transitions` of `record_transition`. -/
def validTransitions : PaymentStatus → List PaymentStatus
  | .created => [.processing]
  | .processing => [.succeeded, .failed]
  | .failed => [.processing]
  | .succeeded => [.refundPending]
  | .refundPending => [.refunded, .succeeded]
  | .refunded => []

def paymentMissing (paymentId : Uuid) : Exn :=
  .valueError ("Payment " ++ paymentId.text ++ " does not exist")

/-- A `str | None` as a text parameter. -/
def textOption : Option String → Json
  | some s => .str s
  | none => .null

def recordTransition (P : Platform) (paymentId : Uuid) (eventType : EventType)
    (newStatus : PaymentStatus) (providerPaymentId : Json) (failureCode : Option String) : Tx Unit := do
  match ← selectPaymentForUpdate paymentId with
  | none => .raise (paymentMissing paymentId)
  | some payment =>
    let previousStatus := payment.status
    if newStatus ∉ validTransitions previousStatus then
      if previousStatus = newStatus then return ()
      else .raise (.valueError
        ("Invalid payment transition: " ++ previousStatus.text ++ " -> " ++ newStatus.text))
    else
      let providerPaymentId ← .ofExcept (providerPaymentId.textParam P)
      let failureCode ← .ofExcept ((textOption failureCode).textParam P)
      updatePayment paymentId fun now p =>
        { p with
          status := newStatus
          providerPaymentId := providerPaymentId <|> p.providerPaymentId
          failureCode := failureCode
          version := p.version + 1
          updatedAt := now }
      insertPaymentEvent paymentId eventType (some previousStatus) newStatus (.obj [])
      insertOutboxEvent paymentId eventType (.obj
        [("payment_id", .str paymentId.text), ("previous_status", .str previousStatus.text),
          ("new_status", .str newStatus.text)])

def recordAwaitingWebhook (P : Platform) (paymentId : Uuid)
    (providerPaymentId : Json) : Tx Unit := do
  match ← selectPaymentForUpdate paymentId with
  | none => .raise (paymentMissing paymentId)
  | some payment =>
    if payment.status ≠ .processing then return ()
    else
      let providerPaymentId ← .ofExcept (providerPaymentId.assignText P)
      updatePayment paymentId fun now p =>
        { p with providerPaymentId := providerPaymentId, updatedAt := now }
      insertPaymentEvent paymentId .paymentAwaitingWebhook (some .processing) .processing (.obj [])

def recordRetry (P : Platform) (paymentId : Uuid) (reason : String) : Tx Unit := do
  let safeReason := firstTwoHundred reason
  match ← selectPaymentForUpdate paymentId with
  | none => .raise (paymentMissing paymentId)
  | some payment =>
    if payment.status ≠ .processing then return ()
    else
      let failureCode ← .ofExcept ((Json.str safeReason).textParam P)
      updatePayment paymentId fun now p =>
        { p with retryCount := p.retryCount + 1, failureCode := failureCode, updatedAt := now }
      insertPaymentEventSelect paymentId .paymentRetryScheduled fun p =>
        .obj [("reason", .str safeReason), ("retry_number", .int p.retryCount)]

/-! ### webhooks.py -/

/-- What `receive_provider_webhook` answers with status 200. -/
inductive WebhookAnswer where
  | duplicateIgnored (eventId : Json)
  | alreadyFinalized (eventId : Json)
  | processed (eventId : Json) (paymentStatus : PaymentStatus)

/-- A parameter of a column that is `NOT NULL`. -/
def notNull (column : String) : Option String → Except Exn String
  | some s => .ok s
  | none => .error (.notNullViolation column)

/-- The transaction of `receive_provider_webhook`, for a payload that has its fields and one of the
two statuses. -/
def receiveProviderWebhookTxn (P : Platform) (payload : Json) : Tx WebhookAnswer := do
  let eventId ← .ofExcept (payload.getItem "event_id")
  let providerEventId ← .ofExcept (eventId.assignText P)
  let eventType ← .ofExcept (payload.getItem "event_type")
  let eventType ← .ofExcept (eventType.assignText P)
  if payload.hasNul || payload.hasNonFinite then
    .raise (.dataError (if payload.hasNul then "unsupported Unicode escape sequence"
      else "invalid input syntax for type json"))
  else
    let providerEventId ← .ofExcept (notNull "provider_event_id" providerEventId)
    let eventType ← .ofExcept (notNull "event_type" eventType)
    match ← insertWebhookEvent providerEventId eventType payload with
    | none => return .duplicateIgnored eventId
    | some _ =>
      let paymentIdField ← .ofExcept (payload.getItem "payment_id")
      match ← Prog.ofExcept (paymentIdField.uuidParam P) with
      | none => .raise (.httpException 404 (.str "Payment not found"))
      | some paymentId =>
        match ← selectPaymentForUpdate paymentId with
        | none => .raise (.httpException 404 (.str "Payment not found"))
        | some payment =>
          let previousStatus := payment.status
          let status ← .ofExcept (payload.getItem "status")
          let newStatus := if status.isStr "SUCCEEDED" then PaymentStatus.succeeded else .failed
          if previousStatus = .succeeded ∨ previousStatus = .refunded then
            return .alreadyFinalized eventId
          else if previousStatus ≠ .processing then
            .raise (.httpException 409 (.str
              ("Cannot transition payment from " ++ previousStatus.text ++ " to " ++ newStatus.text)))
          else
            let eventType :=
              if newStatus = .succeeded then EventType.paymentSucceeded else .paymentFailed
            let providerPaymentId ← .ofExcept (payload.getItem "provider_payment_id")
            let providerPaymentId ← .ofExcept (providerPaymentId.assignText P)
            updatePayment paymentId fun now p =>
              { p with
                status := newStatus
                providerPaymentId := providerPaymentId
                failureCode := if newStatus = .failed then some "PROVIDER_WEBHOOK_FAILURE" else none
                version := p.version + 1
                updatedAt := now }
            insertPaymentEvent paymentId eventType (some previousStatus) newStatus (.obj
              [("source", .str "provider_webhook"), ("provider_event_id", eventId)])
            insertOutboxEvent paymentId eventType (.obj
              [("payment_id", paymentIdField), ("status", .str newStatus.text),
                ("source", .str "provider_webhook")])
            return .processed eventId newStatus

/-! ### reconciliation.py -/

/-- The first transaction of `reconcile_processing_payments`. -/
def reconcileSelectTxn : Tx (List Payment) := selectProcessingPayments

/-- The transaction of `reconcile_processing_payments` for one payment: `true`
if it was corrected. -/
def reconcileOneTxn (paymentId : Uuid) (providerStatus : PaymentStatus) : Tx Bool := do
  match ← selectPaymentForUpdate paymentId with
  | none => return false
  | some current =>
    if current.status ≠ .processing then return false
    else
      let eventType :=
        if providerStatus = .succeeded then EventType.paymentReconciledSucceeded
        else .paymentReconciledFailed
      updatePayment paymentId fun now p =>
        { p with
          status := providerStatus
          failureCode :=
            if providerStatus = .failed then some "RECONCILED_PROVIDER_FAILURE" else none
          version := p.version + 1
          updatedAt := now }
      insertPaymentEvent paymentId eventType (some .processing) providerStatus (.obj
        [("source", .str "reconciliation")])
      insertOutboxEvent paymentId eventType (.obj
        [("payment_id", .str paymentId.text), ("status", .str providerStatus.text),
          ("source", .str "reconciliation")])
      return true

end Payflow.Model
