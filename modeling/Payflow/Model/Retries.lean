import Payflow.Model.System

/-! # The retries of a task

The tasks for any value of `self.max_retries`, and the system in which they run with it. Nothing
else depends on the limit, which is 3 in the system. -/

namespace Payflow.Model

open Payflow.Lib

section limit

variable (maxRetries : ℕ)

/-- The `except` clauses of `process_payment`. -/
def processPaymentExceptUpTo (retries : ℕ) (paymentId : Uuid) (scenario : Scenario) :
    Exn → Proc TaskResult
  | .transientProviderError message => do
    txn (.recordRetry paymentId message)
    if retries ≥ maxRetries then
      txn (.recordTransition paymentId .paymentFailed .failed .null (some "RETRIES_EXHAUSTED"))
      return .retriesExhausted
    else
      retry (.processPayment paymentId scenario) (retries + 1)
  | e => processPaymentExcept retries paymentId scenario e

/-- `process_payment`. -/
def processPaymentUpTo (retries : ℕ) (paymentId : Uuid) (scenario : Scenario) :
    Proc TaskResult := do
  match ← txn (.getPayment paymentId) with
  | none => return .notFound
  | some payment =>
    if payment.status = .succeeded ∨ payment.status = .refunded then return .alreadyCompleted
    else if payment.status = .failed then return .alreadyFailed
    else do
      if payment.status = .created then
        txn (.recordTransition paymentId .paymentProcessing .processing .null none)
      (processPaymentTry paymentId payment scenario).handle
        (processPaymentExceptUpTo maxRetries retries paymentId scenario)

/-- The `except` clauses of `process_refund`. -/
def processRefundExceptUpTo (retries : ℕ) (refundId : Uuid) (scenario : RefundScenario) :
    Exn → Proc TaskResult
  | .transientProviderError message => do
    txn (.recordRefundRetry refundId message)
    if retries ≥ maxRetries then
      txn (.recordRefundTransition refundId .refundFailed .failed .null
        (some "REFUND_RETRIES_EXHAUSTED"))
      txn (.restorePaymentAfterFailedRefund refundId)
      return .retriesExhausted
    else
      retry (.processRefund refundId scenario) (retries + 1)
  | e => processRefundExcept retries refundId scenario e

/-- `process_refund`. -/
def processRefundUpTo (retries : ℕ) (refundId : Uuid) (scenario : RefundScenario) :
    Proc TaskResult := do
  match ← txn (.getRefund refundId) with
  | none => return .notFound
  | some refund =>
    if refund.status = .succeeded then return .alreadySucceeded
    else if refund.status = .failed then return .alreadyFailed
    else do
      if refund.status = .created then
        txn (.recordRefundTransition refundId .refundProcessing .processing .null none)
      (processRefundTry refundId refund scenario).handle
        (processRefundExceptUpTo maxRetries retries refundId scenario)

/-- The execution of a task message. -/
def runTaskUpTo (m : Message) : Proc TaskResult :=
  match m.task with
  | .processPayment paymentId scenario => processPaymentUpTo maxRetries m.retries paymentId scenario
  | .processRefund refundId scenario => processRefundUpTo maxRetries m.retries refundId scenario

/-- The program of a process. -/
def startUpTo (P : Platform) (w : World) : Start P → Option (Proc Ans)
  | .task i =>
    match w.messages[i]? with
    | some m =>
      if m.acked then none else some ((runTaskUpTo maxRetries m).bind fun r => .pure (.task r))
    | none => none
  | x => start P w x

/-- The system with this limit. -/
def payflowUpTo (P : Platform) :
    Machine Db Write Lock Stmt Pick Block Ext Exn Ans (Start P) World SRes BRes ERes :=
  { payflow P with start := startUpTo maxRetries P }

end limit

theorem processPaymentUpTo_maxRetries : processPaymentUpTo maxRetries = processPayment := by
  have hexcept : processPaymentExceptUpTo maxRetries = processPaymentExcept := by
    funext retries paymentId scenario e
    cases e <;> rfl
  unfold processPaymentUpTo
  rw [hexcept]
  rfl

theorem processRefundUpTo_maxRetries : processRefundUpTo maxRetries = processRefund := by
  have hexcept : processRefundExceptUpTo maxRetries = processRefundExcept := by
    funext retries refundId scenario e
    cases e <;> rfl
  unfold processRefundUpTo
  rw [hexcept]
  rfl

/-- **The system** is the one with its own limit. -/
theorem payflowUpTo_maxRetries (P : Platform) : payflowUpTo maxRetries P = payflow P := by
  have hrun : runTaskUpTo maxRetries = runTask := by
    unfold runTaskUpTo
    rw [processPaymentUpTo_maxRetries, processRefundUpTo_maxRetries]
    rfl
  have hstart : startUpTo maxRetries P = start P := by
    funext w x
    cases x with
    | task i =>
      unfold startUpTo
      rw [hrun]
      rfl
    | _ => rfl
  unfold payflowUpTo
  rw [hstart]
  rfl

end Payflow.Model
