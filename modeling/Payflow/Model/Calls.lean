import Payflow.Model.RefundTxns
import Payflow.Lib.Machine

/-! # What a process can do

The transactions that the processes run, by name and arguments, and the actions outside the
database: Redis, the Celery broker and the HTTP requests to the provider. -/

namespace Payflow.Model

open Payflow.Lib

/-- The transactions. -/
inductive Block where
  | getExistingPayment (merchantId idempotencyKey : String)
  | createIdempotentPayment (merchantId idempotencyKey requestHash userId : String)
      (amountCents : ℕ) (currency : String)
  | getPayment (paymentId : Uuid)
  | recordTransition (paymentId : Uuid) (eventType : EventType) (newStatus : PaymentStatus)
      (providerPaymentId : Json) (failureCode : Option String)
  | recordAwaitingWebhook (paymentId : Uuid) (providerPaymentId : Json)
  | recordRetry (paymentId : Uuid) (reason : String)
  | receiveProviderWebhook (payload : Json)
  | reconcileSelect
  | reconcileOne (paymentId : Uuid) (providerStatus : PaymentStatus)
  | createRefund (paymentId : Uuid) (merchantId idempotencyKey : String) (amountCents : ℕ)
  | getRefund (refundId : Uuid)
  | recordRefundTransition (refundId : Uuid) (eventType : EventType) (newStatus : RefundStatus)
      (providerRefundId : Json) (failureCode : Option String)
  | recordRefundRetry (refundId : Uuid) (reason : String)
  | completeSuccessfulRefund (refundId : Uuid)
  | restorePaymentAfterFailedRefund (refundId : Uuid)
  | selectProviderPaymentId (paymentId : Uuid)

/-- What they return. -/
def BRes : Block → Type
  | .getExistingPayment _ _ | .getPayment _ | .selectProviderPaymentId _ => Option Payment
  | .createIdempotentPayment _ _ _ _ _ _ => Payment × Bool
  | .recordTransition _ _ _ _ _ | .recordAwaitingWebhook _ _ | .recordRetry _ _ => Unit
  | .receiveProviderWebhook _ => WebhookAnswer
  | .reconcileSelect => List Payment
  | .reconcileOne _ _ => Bool
  | .createRefund _ _ _ _ => Refund × Bool
  | .getRefund _ => Option Refund
  | .recordRefundTransition _ _ _ _ _ | .recordRefundRetry _ _ | .completeSuccessfulRefund _
  | .restorePaymentAfterFailedRefund _ => Unit

/-- Their bodies. -/
def body (P : Platform) : (b : Block) → Tx (BRes b)
  | .getExistingPayment m k => getExistingPayment m k
  | .createIdempotentPayment m k h u a c => createIdempotentPaymentTxn m k h u a c
  | .getPayment p => getPayment p
  | .recordTransition p type new provider failure => recordTransition P p type new provider failure
  | .recordAwaitingWebhook p provider => recordAwaitingWebhook P p provider
  | .recordRetry p reason => recordRetry P p reason
  | .receiveProviderWebhook payload => receiveProviderWebhookTxn P payload
  | .reconcileSelect => reconcileSelectTxn
  | .reconcileOne p status => reconcileOneTxn p status
  | .createRefund p m k a => createRefundTxn p m k a
  | .getRefund r => getRefund r
  | .recordRefundTransition r type new provider failure =>
    recordRefundTransition P r type new provider failure
  | .recordRefundRetry r reason => recordRefundRetry P r reason
  | .completeSuccessfulRefund r => completeSuccessfulRefund r
  | .restorePaymentAfterFailedRefund r => restorePaymentAfterFailedRefund r
  | .selectProviderPaymentId p => selectProviderPaymentIdTxn p

/-- A Celery task with its arguments. -/
inductive Task where
  | processPayment (paymentId : Uuid) (scenario : Scenario)
  | processRefund (refundId : Uuid) (scenario : RefundScenario)
  deriving DecidableEq

/-- A task message: how often it was retried before, the process that sent it, and whether a worker
has acknowledged it. -/
structure Message where
  task : Task
  retries : ℕ
  sender : ℕ
  acked : Bool

/-- The body of a refund request to the provider. -/
structure RefundBody where
  refundId : Uuid
  providerPaymentId : String
  amountCents : ℕ
  currency : String

/-- The body of a payment request to the provider. -/
structure PaymentBody where
  paymentId : Uuid
  amountCents : ℕ
  currency : String

/-- The actions outside the database. -/
inductive Ext where
  | uuid4
  | redisSet (key token : String)
  | redisRelease (key token : String)
  | delay (task : Task)
  | sendRetry (task : Task) (retries : ℕ)
  | postPayment (scenario : Scenario) (json : PaymentBody)
  | getPayment (providerPaymentId : String)
  | postRefund (scenario : RefundScenario) (json : RefundBody)

/-- What they answer: Redis `none` for a `RedisError`, the broker `false` for an exception. -/
def ERes : Ext → Type
  | .uuid4 => Uuid
  | .redisSet _ _ | .redisRelease _ _ => Option Bool
  | .delay _ | .sendRetry _ _ => Bool
  | .postPayment _ _ | .getPayment _ | .postRefund _ _ => HttpOutcome

/-- The task messages. -/
structure World where
  messages : List Message

/-- A task message is sent; everything else leaves no trace in the broker. -/
def ext (pid : ℕ) (pick : Pick) (w : World) : (e : Ext) → Option (ERes e × World)
  | .uuid4 => match pick with | .newId id => some (id, w) | _ => none
  | .redisSet _ _ => match pick with | .redis r => some (r, w) | _ => none
  | .redisRelease _ _ => match pick with | .redis r => some (r, w) | _ => none
  | .delay task =>
    match pick with
    | .broker true => some (true, ⟨w.messages ++ [⟨task, 0, pid, false⟩]⟩)
    | .broker false => some (false, w)
    | _ => none
  | .sendRetry task retries =>
    match pick with
    | .broker true => some (true, ⟨w.messages ++ [⟨task, retries, pid, false⟩]⟩)
    | .broker false => some (false, w)
    | _ => none
  | .postPayment _ _ => match pick with | .http out => some (out, w) | _ => none
  | .getPayment _ => match pick with | .http out => some (out, w) | _ => none
  | .postRefund _ _ => match pick with | .http out => some (out, w) | _ => none

/-- A process of the application. -/
abbrev Proc (α : Type) := Prog (Call Block Ext) (Call.Res BRes ERes Exn) Exn α

/-- Run a transaction; if it raises, it was rolled back and the exception goes on. -/
def txn (b : Block) : Proc (BRes b) := .op (.txn b) .ofExcept

def redisSet (key token : String) : Proc (Option Bool) := .perform
    (Call.ext (Ext.redisSet key token))

def redisRelease (key token : String) : Proc (Option Bool) :=
  .perform (Call.ext (Ext.redisRelease key token))

/-- `task.delay(…)`. -/
def delay (task : Task) : Proc Unit :=
  .op (Call.ext (Ext.delay task)) fun (sent : Bool) => if sent then .pure () else .raise .kombuError

/-- `raise self.retry(…)`: the message is sent again, then the task ends. -/
def retry {α : Type} (task : Task) (retries : ℕ) : Proc α :=
  .op (Call.ext (Ext.sendRetry task retries)) fun (sent : Bool) =>
    .raise (if sent then .retry else .kombuError)

end Payflow.Model
