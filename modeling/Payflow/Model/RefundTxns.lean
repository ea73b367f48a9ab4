import Payflow.Model.PaymentTxns

/-! # The transactions on refunds

The `with get_connection()` blocks of `refunds.py`, `refund_service.py` and `process_refund`, under
the names of the functions they are in. -/

namespace Payflow.Model

open Payflow.Lib

/-- The statuses of the refunds that reserve a part of the payment's amount. -/
def reservedStatuses : List RefundStatus := [.created, .processing, .succeeded]

/-! ### refunds.py -/

/-- The transaction of `create_refund`; `true` marks a duplicate. -/
def createRefundTxn (paymentId : Uuid) (merchantId idempotencyKey : String) (amountCents : ℕ) :
    Tx (Refund × Bool) := do
  match ← selectRefundByKey merchantId idempotencyKey with
  | some existingRefund => return (existingRefund, true)
  | none =>
    match ← selectMerchantPaymentForUpdate paymentId merchantId with
    | none => .raise (.httpException 404 (.str "Payment not found"))
    | some payment =>
      if payment.status ≠ .succeeded then
        .raise (.httpException 409 (.str "Only a succeeded payment can be refunded"))
      else if payment.providerPaymentId = none then
        .raise (.httpException 409 (.str "Payment has no provider payment ID"))
      else
        let reservedAmount ← sumRefunds paymentId reservedStatuses
        let refundableAmount : ℤ := payment.amountCents - reservedAmount
        if (amountCents : ℤ) > refundableAmount then
          .raise (.httpException 422 (.obj
            [("message", .str "Refund amount exceeds refundable balance"),
              ("requested_amount_cents", .int amountCents),
              ("refundable_amount_cents", .int refundableAmount)]))
        else
          let refundId ← uuid4
          let refund ← insertRefund refundId paymentId merchantId idempotencyKey amountCents
            payment.currency
          updatePayment paymentId fun now p =>
            { p with status := .refundPending, version := p.version + 1, updatedAt := now }
          insertRefundEvent refundId .refundCreated none .created (.obj
            [("amount_cents", .int amountCents)])
          insertPaymentEvent paymentId .paymentRefundPending (some .succeeded) .refundPending (.obj
            [("refund_id", .str refundId.text), ("amount_cents", .int amountCents)])
          insertOutboxEvent refundId .refundCreated (.obj
            [("refund_id", .str refundId.text), ("payment_id", .str paymentId.text),
              ("amount_cents", .int amountCents)])
          return (refund, false)

/-! ### refund_service.py -/

def getRefund (refundId : Uuid) : Tx (Option Refund) := selectRefund refundId

/-- `valid_transitions` of `record_refund_transition`. -/
def validRefundTransitions : RefundStatus → List RefundStatus
  | .created => [.processing]
  | .processing => [.succeeded, .failed]
  | .succeeded => []
  | .failed => []

def refundMissing (refundId : Uuid) : Exn :=
  .valueError ("Refund " ++ refundId.text ++ " does not exist")

/-- A text parameter of a `VARCHAR(255)` column. -/
def varcharOption : Option String → Except Exn (Option String)
  | some s =>
    match varchar 255 s with
    | .ok t => .ok (some t)
    | .error e => .error e
  | none => .ok none

def recordRefundTransition (P : Platform) (refundId : Uuid) (eventType : EventType)
    (newStatus : RefundStatus) (providerRefundId : Json) (failureCode : Option String) : Tx Unit := do
  match ← selectRefundForUpdate refundId with
  | none => .raise (refundMissing refundId)
  | some refund =>
    let previousStatus := refund.status
    if newStatus ∉ validRefundTransitions previousStatus then
      if previousStatus = newStatus then return ()
      else .raise (.valueError
        ("Invalid refund transition: " ++ previousStatus.text ++ " -> " ++ newStatus.text))
    else
      let providerRefundId ← .ofExcept (providerRefundId.textParam P)
      let providerRefundId ← .ofExcept (varcharOption providerRefundId)
      let failureCode ← .ofExcept ((textOption failureCode).textParam P)
      let _ ← updateRefund refundId fun now r =>
        { r with
          status := newStatus
          providerRefundId := providerRefundId <|> r.providerRefundId
          failureCode := failureCode
          updatedAt := now }
      insertRefundEvent refundId eventType (some previousStatus) newStatus (.obj [])
      insertOutboxEvent refundId eventType (.obj
        [("refund_id", .str refundId.text), ("payment_id", .str refund.paymentId.text),
          ("previous_status", .str previousStatus.text), ("new_status", .str newStatus.text)])

def recordRefundRetry (P : Platform) (refundId : Uuid) (reason : String) : Tx Unit := do
  let safeReason := firstTwoHundred reason
  let failureCode ← .ofExcept ((Json.str safeReason).textParam P)
  match ← updateRefundIf refundId .processing fun now r =>
    { r with retryCount := r.retryCount + 1, failureCode := failureCode, updatedAt := now } with
  | none => return ()
  | some refund =>
    insertRefundEvent refundId .refundRetryScheduled (some .processing) .processing (.obj
      [("reason", .str safeReason), ("retry_number", .int refund.retryCount)])

/-- After a refund succeeds, mark the payment `REFUNDED` when its entire amount has been refunded.
Otherwise return it to `SUCCEEDED`. -/
def completeSuccessfulRefund (refundId : Uuid) : Tx Unit := do
  match ← selectRefund refundId with
  | none => .raise (refundMissing refundId)
  | some refund =>
    match ← selectPaymentForUpdate refund.paymentId with
    | none => .raise (.valueError "Payment does not exist")
    | some payment =>
      let successfulTotal ← sumRefunds payment.id [.succeeded]
      let newStatus :=
        if successfulTotal ≥ payment.amountCents then PaymentStatus.refunded else .succeeded
      let eventType :=
        if successfulTotal ≥ payment.amountCents then EventType.paymentRefunded
        else .paymentPartiallyRefunded
      let previousStatus := payment.status
      updatePayment payment.id fun now p =>
        { p with status := newStatus, version := p.version + 1, updatedAt := now }
      insertPaymentEvent payment.id eventType (some previousStatus) newStatus (.obj
        [("refund_id", .str refundId.text), ("total_refunded_cents", .int successfulTotal)])
      insertOutboxEvent payment.id eventType (.obj
        [("payment_id", .str payment.id.text), ("refund_id", .str refundId.text),
          ("status", .str newStatus.text), ("total_refunded_cents", .int successfulTotal)])

/-- Return a payment to `SUCCEEDED` after its refund fails. -/
def restorePaymentAfterFailedRefund (refundId : Uuid) : Tx Unit := do
  match ← selectRefund refundId with
  | none => return ()
  | some refund =>
    updatePaymentIf refund.paymentId .refundPending fun now p =>
      { p with status := .succeeded, version := p.version + 1, updatedAt := now }

/-! ### tasks.py -/

/-- The transaction inside `process_refund`. -/
def selectProviderPaymentIdTxn (paymentId : Uuid) : Tx (Option Payment) := selectPayment paymentId

end Payflow.Model
