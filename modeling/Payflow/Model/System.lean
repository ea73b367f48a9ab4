import Payflow.Model.JsonLoads
import Payflow.Model.Provider
import Payflow.Model.Workers

/-! # The system

The API, the workers and the scheduler over one database, one Redis and one broker, with a provider
that may answer anything. Requests arrive at any time and in any number. A task message can be
delivered again and again, also while it is being worked on, until a worker that has ended its
execution has acknowledged it (`task_acks_late`); a killed worker acknowledges nothing. -/

namespace Payflow.Model

open Payflow.Lib

/-- What a process is started as. -/
inductive Start (P : Platform) where
  | createPayment (call : CreatePayment P)
  | createRefund (call : CreateRefund)
  | receiveProviderWebhook (call : ReceiveWebhook)
  | task (message : ℕ)
  | reconcilePayments

/-- What a process answers. -/
inductive Ans where
  | payment (r : PaymentResponse)
  | refund (r : RefundResponse)
  | webhook (r : WebhookAnswer)
  | task (r : TaskResult)
  | reconciled (r : Reconciled)

/-- The execution of a task message. -/
def runTask (m : Message) : Proc TaskResult :=
  match m.task with
  | .processPayment paymentId scenario => processPayment m.retries paymentId scenario
  | .processRefund refundId scenario => processRefund m.retries refundId scenario

/-- The program of a process; a message that is acknowledged is not delivered. -/
def start (P : Platform) (w : World) : Start P → Option (Proc Ans)
  | .createPayment call => some ((createPayment P call).bind fun r => .pure (.payment r))
  | .createRefund call => some ((createRefund call).bind fun r => .pure (.refund r))
  | .receiveProviderWebhook call =>
    some ((receiveProviderWebhook P call).bind fun r => .pure (.webhook r))
  | .task i =>
    match w.messages[i]? with
    | some m => if m.acked then none else some ((runTask m).bind fun r => .pure (.task r))
    | none => none
  | .reconcilePayments => some (reconcileProcessingPayments.bind fun r => .pure (.reconciled r))

/-- The end of an execution, by a return or by an exception, acknowledges its message. -/
def finish (P : Platform) (x : Start P) (_ : Except Exn Ans) (w : World) : World :=
  match x with
  | .task i => ⟨w.messages.modify i fun m => { m with acked := true }⟩
  | _ => w

/-- The system. -/
def payflow (P : Platform) :
    Machine Db Write Lock Stmt Pick Block Ext Exn Ans (Start P) World SRes BRes ERes where
  toStore := store
  body := body P
  ext := ext
  start := start P
  finish := finish P

/-- The states of the system. -/
abbrev State (P : Platform) := Machine.State (payflow P)

/-- Before the first request. -/
def init (P : Platform) : State P := ⟨Db.empty, ⟨[]⟩, 0, []⟩

/-- The states the system can reach. -/
abbrev Reachable (P : Platform) (s : State P) : Prop := Machine.Reachable (payflow P) (init P) s

/-! ### Runs step by step

A platform and scripts of actions for runs on given requests. -/

/-- The UUID that ends in `n`. -/
def exampleUuid (n : ℕ) : Uuid := ⟨0x40008000000000000000 + n⟩

/-- The request of the first payment in the scripts, as it is hashed, and its SHA-256. -/
def exampleCanonical : String := canonicalRequest "user-1" 500 "INR"

def exampleHash : String := "f34b5161d11fde070c9fb1e12873535458f16ec6f5adf5a8f68509a895a99d90"

/-- The provider's webhook for it, with the HMAC of its body under the secret of the settings. -/
def exampleWebhook : ReceiveWebhook where
  rawBody := (webhookText "event_1" (exampleUuid 1) "provider_1").toUTF8.data.toList
  xWebhookSignature := "5be2ae1def7790385bf5b56b17fc9fa993b1f2427774987e9eaca63b98b79d48"

/-- A platform that behaves as the real one does on what the scripts give it. -/
def examplePlatform : Platform where
  upper := id
  upper_upper _ := rfl
  sha256Hex s := if s = exampleCanonical then exampleHash else if s = exampleHash then exampleCanonical else s
  webhookHmac body := if body = exampleWebhook.rawBody then exampleWebhook.xWebhookSignature else ""
  jsonLoads := loadsBytes
  parseUuid := uuidIn
  arrayText _ := none

/-- The actions of the runs over it. -/
abbrev Act := Action (Start examplePlatform) Pick

/-- Steps of a process that need nothing from the environment. -/
def quiet (pid n : ℕ) : List Act := List.replicate n (.step pid .nothing)

/-- Steps of a process that draw ids. -/
def draw (pid : ℕ) (ids : List ℕ) : List Act := ids.map fun n => .step pid (.newId (exampleUuid n))

/-- The provider's answer to a request. -/
def answer (pid : ℕ) (idField status : String) (id : ℕ) : Act :=
  .step pid (.http (.response 200 "" (.ok (.obj
    [("status", .str status), (idField, .str (exampleUuid id).text)]))))

/-- `create_payment` for 500 cents, which gets the id `n`. -/
def examplePayment : CreatePayment examplePlatform where
  merchantId := "demo-merchant"
  idempotencyKey := "payment-key-1"
  request := ⟨"user-1", 500, "INR", by decide, by decide, by decide⟩
  xTestScenario := .success
  idempotencyKey_length := by decide

def createPaymentWith (call : CreatePayment examplePlatform) (pid n : ℕ) : List Act :=
  [.start (.createPayment call)] ++ draw pid [n + 1] ++
    [.step pid (.redis (some true))] ++
    quiet pid 1 ++ draw pid [n] ++ quiet pid 1 ++ draw pid [n + 2] ++ quiet pid 1 ++
    [.step pid (.redis (some true)), .step pid (.broker true)] ++ quiet pid 1

def createPaymentScript (pid n : ℕ) : List Act := createPaymentWith examplePayment pid n

/-- The message `i` of a new payment is worked on up to the request to the provider. -/
def startPaymentScript (pid i n : ℕ) : List Act :=
  [.start (.task i)] ++ quiet pid 6 ++ draw pid [n, n + 1] ++ quiet pid 1

/-- The provider reports success, and the payment is `SUCCEEDED`. -/
def payScript (pid n : ℕ) : List Act :=
  [answer pid "provider_payment_id" "SUCCEEDED" n] ++ quiet pid 3 ++ draw pid [n + 1, n + 2] ++
    quiet pid 2

/-- `create_refund` for the payment `p` with a key and an amount; the refund gets the id `n`. -/
def exampleRefund (p : ℕ) (key : String) (hkey : 1 ≤ key.length ∧ key.length ≤ 255) (amount : ℕ)
    (hamount : 0 < amount) : CreateRefund where
  paymentId := exampleUuid p
  merchantId := "demo-merchant"
  idempotencyKey := key
  amountCents := amount
  xTestScenario := .success
  idempotencyKey_length := hkey
  amountCents_pos := hamount

/-- `create_refund` for the first payment. -/
def refundOfAmount (amount : ℕ) (hamount : 0 < amount) : CreateRefund :=
  exampleRefund 1 "refund-key-1" (by decide) amount hamount

/-- A refund of a part of the payment. -/
def partialRefund : CreateRefund := refundOfAmount 200 (by decide)

/-- A refund of the whole payment. -/
def wholeRefund : CreateRefund := refundOfAmount 500 (by decide)

def createRefundScript (pid : ℕ) (call : CreateRefund) (n : ℕ) : List Act :=
  [.start (.createRefund call)] ++ quiet pid 4 ++ draw pid [n] ++ quiet pid 2 ++
    draw pid [n + 1, n + 2, n + 3] ++ quiet pid 1 ++ [.step pid (.broker true)] ++ quiet pid 1

/-- The message `i` of a new refund is worked on up to the request to the provider. -/
def startRefundScript (pid i n : ℕ) : List Act :=
  [.start (.task i)] ++ quiet pid 6 ++ draw pid [n, n + 1] ++ quiet pid 4

/-- The provider reports success, and the refund is `SUCCEEDED`. -/
def succeedRefundScript (pid n : ℕ) : List Act :=
  [answer pid "provider_refund_id" "SUCCEEDED" n] ++ quiet pid 3 ++ draw pid [n + 1, n + 2] ++
    quiet pid 1

/-- `complete_successful_refund`. -/
def completeScript (pid n : ℕ) : List Act := quiet pid 5 ++ draw pid [n, n + 1] ++ quiet pid 2

/-- A payment of 500 cents that has succeeded. -/
def onePayment : List Act := createPaymentScript 0 1 ++ startPaymentScript 1 0 4 ++ payScript 1 6

/-- Its refund of 200 cents, which succeeds. -/
def oneRefund : List Act :=
  createRefundScript 2 partialRefund 10 ++
    startRefundScript 3 1 14 ++ succeedRefundScript 3 16 ++ completeScript 3 19

/-- A second delivery of the payment's task, process 2, begins before the first one, process 1, has
ended, and reports success when a refund of the whole payment, in process 4, is on its way. -/
def staleDelivery : List Act :=
  createPaymentScript 0 1 ++ startPaymentScript 1 0 4 ++ [.start (.task 0)] ++ quiet 2 3 ++
    payScript 1 6 ++
    createRefundScript 3 wholeRefund 10 ++
    startRefundScript 4 1 14 ++ payScript 2 16

end Payflow.Model
