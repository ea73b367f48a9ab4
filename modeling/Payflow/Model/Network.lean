import Payflow.Model.Provider
import Payflow.Model.System
import Payflow.Lib.Steps

/-! # The system and its provider

The system with the provider of `provider_simulator/main.py`, which is never restarted. A request of
a process is a call: it may be lost, its handler may begin at any time, and it runs on when the
client has given up. Only the provider can sign a webhook: what anyone else sends has a wrong
signature, or repeats a webhook that was signed before. -/

namespace Payflow.Model

open Payflow.Lib

/-- How far a call has come. -/
inductive CallState where
  | sent
  | handled (h : Handler)

/-- A call of the provider: the process that waits for the response, if it still does,
and the request. -/
structure ProviderCall where
  client : Option ℕ
  request : Ext
  state : CallState

/-- The system, the provider, the calls between them, and the webhooks that the provider has signed,
with their event ids. -/
structure Net (P : Platform) where
  app : State P
  provider : Provider
  calls : List ProviderCall
  signed : List (String × Webhook)

/-- What can happen in one step. -/
inductive NetAction (P : Platform) where
  | app (a : Action (Start P) Pick)
  | send (pid : ℕ)
  | receive (call : ℕ) (id text : String)
  | wake (call : ℕ)
  | respond (call : ℕ)
  | fail (call : ℕ) (out : HttpOutcome)
  | deliver (webhook : ℕ) (eventId : String)
  | deliverAgain (webhook : ℕ)
  | lose (webhook : ℕ)

/-! ### The handlers -/

/-- The response of FastAPI to a body that it does not accept. -/
def invalidResponse (text : String) : Response := ⟨422, text, .ok .null⟩

/-- The handler of a request up to its first `await`; the id of a new record is not in use. -/
def handle (P : Platform) (S : Provider) (id text : String) : Ext → Option (Provider × Handler)
  | .postPayment scenario request =>
    if !request.valid then some (S, .ended (invalidResponse text))
    else if S.unused id then some (createProviderPayment P S id scenario request)
    else none
  | .getPayment providerPaymentId =>
    some (S, .ended (retrieveProviderPayment S providerPaymentId))
  | .postRefund scenario request =>
    if !request.valid then some (S, .ended (invalidResponse text))
    else if S.unused id then some (createProviderRefund P S id scenario request)
    else none
  | _ => none

/-- The rest of a handler that has slept. -/
def wakeHandler (S : Provider) (id : String) : Ext → Option (Provider × Handler)
  | .postPayment scenario request => some (finishProviderPayment S id request.paymentId scenario)
  | .postRefund scenario request => some (finishProviderRefund S id request scenario)
  | _ => none

/-! ### Steps -/

namespace Net

variable {P : Platform} (n : Net P)

/-- The action is a request to the provider. -/
def isRequest : Ext → Bool
  | .postPayment _ _ | .getPayment _ | .postRefund _ _ => true
  | _ => false

/-- What the process asks of the provider. -/
def asks (pid : ℕ) : Option Ext :=
  match n.app.procs[pid]? with
  | some ⟨_, .run (.op (.ext e) _)⟩ => if isRequest e then some e else none
  | _ => none

/-- The outcome is a response. -/
def isResponse : HttpOutcome → Bool
  | .response _ _ _ => true
  | _ => false

/-- The process has answered with status 200. -/
def answered (pid : ℕ) : Bool :=
  match n.app.procs[pid]? with
  | some ⟨_, .done (.ok _)⟩ => true
  | _ => false

/-- The action takes place without the provider: no outcome of a request, and no webhook with the
right signature but for a copy of one. -/
def admits : Action (Start P) Pick → Bool
  | .step _ (.http _) => false
  | .start (.receiveProviderWebhook call) =>
    call.xWebhookSignature != P.webhookHmac call.rawBody ||
      n.signed.any fun (eventId, w) => (webhookCall P eventId w).rawBody == call.rawBody
  | _ => true

/-- The step of the system. -/
def stepApp (a : Action (Start P) Pick) : Option (Net P) :=
  match (payflow P).step n.app a with
  | some s => some { n with app := s }
  | none => none

/-- The call changes. -/
def setCall (i : ℕ) (c : ProviderCall) : Net P := { n with calls := n.calls.set i c }

/-- The webhook is sent, or over. -/
def setWebhook (k : ℕ) (w : Webhook) : Net P :=
  { n with provider := { n.provider with webhooks := n.provider.webhooks.set k w } }

/-- One step. -/
def step : NetAction P → Option (Net P)
  | .app a => if n.admits a then n.stepApp a else none
  | .send pid =>
    match n.asks pid with
    | some e =>
      if n.calls.any fun c => c.client = some pid then none
      else some { n with calls := n.calls ++ [⟨some pid, e, .sent⟩] }
    | none => none
  | .receive i id text =>
    match n.calls[i]? with
    | some ⟨client, e, .sent⟩ =>
      match handle P n.provider id text e with
      | some (S, h) => some { n.setCall i ⟨client, e, .handled h⟩ with provider := S }
      | none => none
    | _ => none
  | .wake i =>
    match n.calls[i]? with
    | some ⟨client, e, .handled (.asleep id)⟩ =>
      match wakeHandler n.provider id e with
      | some (S, h) => some { n.setCall i ⟨client, e, .handled h⟩ with provider := S }
      | none => none
    | _ => none
  | .respond i =>
    match n.calls[i]? with
    | some ⟨some pid, e, .handled (.ended r)⟩ =>
      (n.setCall i ⟨none, e, .handled (.ended r)⟩).stepApp
        (.step pid (.http (.response r.statusCode r.text r.json)))
    | _ => none
  | .fail i out =>
    match n.calls[i]? with
    | some ⟨some pid, e, state⟩ =>
      if isResponse out then none
      else (n.setCall i ⟨none, e, state⟩).stepApp (.step pid (.http out))
    | _ => none
  | .deliver k eventId =>
    match n.provider.webhooks[k]? with
    | some ⟨paymentId, id, duplicate, .waiting⟩ =>
      if n.signed.any fun x => x.1 = eventId then none
      else
        let w : Webhook := ⟨paymentId, id, duplicate, .sent eventId n.app.procs.length⟩
        { n.setWebhook k w with signed := n.signed ++ [(eventId, w)] }.stepApp
          (.start (.receiveProviderWebhook (webhookCall P eventId w)))
    | _ => none
  | .deliverAgain k =>
    match n.provider.webhooks[k]? with
    | some ⟨paymentId, id, true, .sent eventId pid⟩ =>
      if n.answered pid then
        let w : Webhook := ⟨paymentId, id, true, .over⟩
        (n.setWebhook k w).stepApp (.start (.receiveProviderWebhook (webhookCall P eventId w)))
      else none
    | _ => none
  | .lose k =>
    match n.provider.webhooks[k]? with
    | some ⟨paymentId, id, duplicate, .waiting⟩ =>
      some (n.setWebhook k ⟨paymentId, id, duplicate, .over⟩)
    | _ => none

end Net

/-- Before the first request. -/
def Net.init (P : Platform) : Net P := ⟨Model.init P, ⟨[], [], []⟩, [], []⟩

/-- The states that are reached. -/
abbrev NetReachable {P : Platform} (n : Net P) : Prop :=
  Reaches Net.step (fun _ _ => True) (Net.init P) n

end Payflow.Model
