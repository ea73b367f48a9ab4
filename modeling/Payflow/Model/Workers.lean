import Payflow.Model.Api

/-! # The workers

The Celery tasks `process_payment` and `process_refund` and the scheduled
`reconcile_processing_payments`. A task is given `self.request.retries` and its arguments. -/

namespace Payflow.Model

open Payflow.Lib

/-- `max_retries` of both tasks. -/
def maxRetries : ℕ := 3

/-- The field `result` of what a task returns. -/
inductive TaskResult where
  | notFound | alreadyCompleted | alreadySucceeded | alreadyFailed | succeeded | awaitingWebhook
  | failed | retriesExhausted | permanentFailure
  deriving DecidableEq, Repr

/-! ### process_payment -/

/-- The `try` block of `process_payment`. -/
def processPaymentTry (paymentId : Uuid) (payment : Payment) (scenario : Scenario) :
    Proc TaskResult := do
  let providerResult ← sendPaymentToProvider scenario
    ⟨paymentId, payment.amountCents, payment.currency⟩
  let providerStatus ← .ofExcept (providerResult.getItem "status")
  let providerPaymentId ← .ofExcept (providerResult.getItem "provider_payment_id")
  if providerStatus.isStr "SUCCEEDED" then
    txn (.recordTransition paymentId .paymentSucceeded .succeeded providerPaymentId none)
    return .succeeded
  else if providerStatus.isStr "PROCESSING" then
    txn (.recordAwaitingWebhook paymentId providerPaymentId)
    return .awaitingWebhook
  else
    txn (.recordTransition paymentId .paymentFailed .failed providerPaymentId
      (some "PROVIDER_DECLINED"))
    return .failed

/-- The `except` clauses of `process_payment`. -/
def processPaymentExcept (retries : ℕ) (paymentId : Uuid) (scenario : Scenario) :
    Exn → Proc TaskResult
  | .transientProviderError message => do
    txn (.recordRetry paymentId message)
    if retries ≥ maxRetries then
      txn (.recordTransition paymentId .paymentFailed .failed .null (some "RETRIES_EXHAUSTED"))
      return .retriesExhausted
    else
      retry (.processPayment paymentId scenario) (retries + 1)
  | .permanentProviderError message => do
    txn (.recordTransition paymentId .paymentFailed .failed .null (some (firstTwoHundred message)))
    return .permanentFailure
  | e => .raise e

def processPayment (retries : ℕ) (paymentId : Uuid) (scenario : Scenario) : Proc TaskResult := do
  match ← txn (.getPayment paymentId) with
  | none => return .notFound
  | some payment =>
    if payment.status = .succeeded ∨ payment.status = .refunded then return .alreadyCompleted
    else if payment.status = .failed then return .alreadyFailed
    else do
      if payment.status = .created then
        txn (.recordTransition paymentId .paymentProcessing .processing .null none)
      (processPaymentTry paymentId payment scenario).handle
        (processPaymentExcept retries paymentId scenario)

/-! ### process_refund -/

/-- The `try` block of `process_refund`. -/
def processRefundTry (refundId : Uuid) (refund : Refund) (scenario : RefundScenario) :
    Proc TaskResult := do
  let payment ← txn (.selectProviderPaymentId refund.paymentId)
  match payment.bind (·.providerPaymentId) with
  | none => .raise (.permanentProviderError "Payment has no provider payment ID")
  | some providerPaymentId =>
    let providerResult ← sendRefundToProvider scenario
      ⟨refundId, providerPaymentId, refund.amountCents, refund.currency⟩
    let providerStatus ← .ofExcept (providerResult.getItem "status")
    let providerRefundId ← .ofExcept (providerResult.getItem "provider_refund_id")
    if providerStatus.isStr "SUCCEEDED" then
      txn (.recordRefundTransition refundId .refundSucceeded .succeeded providerRefundId none)
      txn (.completeSuccessfulRefund refundId)
      return .succeeded
    else
      txn (.recordRefundTransition refundId .refundFailed .failed providerRefundId
        (some "PROVIDER_REFUND_DECLINED"))
      txn (.restorePaymentAfterFailedRefund refundId)
      return .failed

/-- The `except` clauses of `process_refund`. -/
def processRefundExcept (retries : ℕ) (refundId : Uuid) (scenario : RefundScenario) :
    Exn → Proc TaskResult
  | .transientProviderError message => do
    txn (.recordRefundRetry refundId message)
    if retries ≥ maxRetries then
      txn (.recordRefundTransition refundId .refundFailed .failed .null
        (some "REFUND_RETRIES_EXHAUSTED"))
      txn (.restorePaymentAfterFailedRefund refundId)
      return .retriesExhausted
    else
      retry (.processRefund refundId scenario) (retries + 1)
  | .permanentProviderError message => do
    txn (.recordRefundTransition refundId .refundFailed .failed .null
      (some (firstTwoHundred message)))
    txn (.restorePaymentAfterFailedRefund refundId)
    return .permanentFailure
  | e => .raise e

def processRefund (retries : ℕ) (refundId : Uuid) (scenario : RefundScenario) :
    Proc TaskResult := do
  match ← txn (.getRefund refundId) with
  | none => return .notFound
  | some refund =>
    if refund.status = .succeeded then return .alreadySucceeded
    else if refund.status = .failed then return .alreadyFailed
    else do
      if refund.status = .created then
        txn (.recordRefundTransition refundId .refundProcessing .processing .null none)
      (processRefundTry refundId refund scenario).handle
        (processRefundExcept retries refundId scenario)

/-! ### reconcile_processing_payments -/

/-- The counters that `reconcile_processing_payments` returns. -/
structure Reconciled where
  checked : ℕ
  corrected : ℕ
  errors : ℕ

/-- `get_provider_payment` in its `try` block: `none` for a transient or permanent error. -/
def tryGetProviderPayment (providerPaymentId : String) : Proc (Option Json) :=
  ((getProviderPayment providerPaymentId).bind fun json => .pure (some json)).handle fun
    | .transientProviderError _ | .permanentProviderError _ => .pure none
    | e => .raise e

/-- The loop of `reconcile_processing_payments`. -/
def reconcileLoop : List Payment → Reconciled → Proc Reconciled
  | [], counts => .pure counts
  | payment :: payments, counts => do
    let counts := { counts with checked := counts.checked + 1 }
    match ← tryGetProviderPayment (payment.providerPaymentId.getD "None") with
    | none => reconcileLoop payments { counts with errors := counts.errors + 1 }
    | some providerPayment =>
      let providerStatus ← .ofExcept (providerPayment.getItem "status")
      let final ← .ofExcept (providerStatus.inSet ["SUCCEEDED", "FAILED"])
      if !final then reconcileLoop payments counts
      else
        let corrected : Bool ← txn (.reconcileOne payment.id
          (if providerStatus.isStr "SUCCEEDED" then .succeeded else .failed))
        reconcileLoop payments
          { counts with corrected := counts.corrected + if corrected then 1 else 0 }

def reconcileProcessingPayments : Proc Reconciled := do
  let payments ← txn .reconcileSelect
  reconcileLoop payments ⟨0, 0, 0⟩

end Payflow.Model
