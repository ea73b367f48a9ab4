import Payflow.Model.Api

/-! # provider_simulator/main.py

The provider: its records in memory, which a restart would clear, the handlers of its endpoints, cut
where they `await`, and the webhooks that are delivered in the background. A record's id is drawn
new. What a client reads of a response is its status code, its text if the request failed, and its
JSON if not. -/

namespace Payflow.Model

/-- The field `status` of a record. -/
inductive ProviderStatus where
  | processing | succeeded | failed
  deriving DecidableEq, Repr

def ProviderStatus.text : ProviderStatus → String
  | processing => "PROCESSING"
  | succeeded => "SUCCEEDED"
  | failed => "FAILED"

/-- A record of `PROVIDER_PAYMENTS`. -/
structure ProviderPayment where
  providerPaymentId : String
  paymentId : Uuid
  amountCents : ℕ
  currency : String
  status : ProviderStatus
  deriving DecidableEq

/-- A record of `PROVIDER_REFUNDS`. -/
structure ProviderRefund where
  providerRefundId : String
  refundId : Uuid
  providerPaymentId : String
  amountCents : ℕ
  currency : String
  status : ProviderStatus
  deriving DecidableEq

/-- How far `deliver_webhook` has come: it sleeps, or it has sent the webhook with the event id to a
process of the API, or it is over. -/
inductive WebhookState where
  | waiting
  | sent (eventId : String) (pid : ℕ)
  | over

/-- A call of `deliver_webhook`. -/
structure Webhook where
  paymentId : Uuid
  providerPaymentId : String
  duplicate : Bool
  state : WebhookState

/-- The provider. -/
structure Provider where
  payments : List ProviderPayment
  refunds : List ProviderRefund
  webhooks : List Webhook

/-- A response. -/
structure Response where
  statusCode : ℕ
  text : String
  json : Except Exn Json

/-- The rest of a handler: it sleeps, with the id of its record, or it has responded. -/
inductive Handler where
  | asleep (id : String)
  | ended (r : Response)

namespace Provider

/-- `PROVIDER_PAYMENTS.get(id)`. -/
def payment? (S : Provider) (id : String) : Option ProviderPayment :=
  S.payments.find? fun r => r.providerPaymentId = id

/-- `PROVIDER_REFUNDS.get(id)`. -/
def refund? (S : Provider) (id : String) : Option ProviderRefund :=
  S.refunds.find? fun r => r.providerRefundId = id

/-- `PROVIDER_PAYMENTS[id]["status"] = status`. -/
def setPayment (S : Provider) (id : String) (status : ProviderStatus) : Provider :=
  { S with payments := S.payments.map fun r =>
      if r.providerPaymentId = id then { r with status := status } else r }

/-- `PROVIDER_REFUNDS[id]["status"] = status`. -/
def setRefund (S : Provider) (id : String) (status : ProviderStatus) : Provider :=
  { S with refunds := S.refunds.map fun r =>
      if r.providerRefundId = id then { r with status := status } else r }

/-- The id is the key of no record. -/
def unused (S : Provider) (id : String) : Bool :=
  (S.payment? id).isNone && (S.refund? id).isNone

end Provider

/-- The response to an `HTTPException`. -/
def errorResponse (statusCode : ℕ) (detail : String) : Response where
  statusCode := statusCode
  text := "\x7b\"detail\":\"" ++ detail ++ "\"\x7d"
  json := .ok (.obj [("detail", .str detail)])

/-- `ProviderPaymentResponse`. -/
def paymentResponse (id : String) (paymentId : Uuid) (status message : String) : Response where
  statusCode := 200
  text := ""
  json := .ok (.obj [("provider_payment_id", .str id), ("payment_id", .str paymentId.text),
    ("status", .str status), ("message", .str message)])

/-- `ProviderRefundResponse`. -/
def refundResponse (id : String) (request : RefundBody) (status message : String) : Response where
  statusCode := 200
  text := ""
  json := .ok (.obj [("provider_refund_id", .str id), ("refund_id", .str request.refundId.text),
    ("provider_payment_id", .str request.providerPaymentId), ("status", .str status),
    ("message", .str message)])

/-! ### Payments -/

/-- `ProviderPaymentRequest` accepts the body. -/
def PaymentBody.valid (request : PaymentBody) : Bool :=
  decide (0 < request.amountCents) && decide (request.currency.length = 3)

/-- `create_provider_payment` after its record is made and it has slept, if it does. -/
def finishProviderPayment (S : Provider) (id : String) (paymentId : Uuid) :
    Scenario → Provider × Handler
  | .serverError => (S, .ended (errorResponse 503 "Simulated provider service failure"))
  | .declined =>
    (S.setPayment id .failed,
      .ended (paymentResponse id paymentId "FAILED" "Payment declined by simulated provider"))
  | .lostWebhook =>
    (S.setPayment id .succeeded,
      .ended (paymentResponse id paymentId "PROCESSING" "Payment succeeded but webhook was lost"))
  | .delayedWebhook =>
    ({ S.setPayment id .succeeded with
        webhooks := S.webhooks ++ [⟨paymentId, id, false, .waiting⟩] },
      .ended (paymentResponse id paymentId "PROCESSING" "Final result will be delivered by webhook"))
  | .duplicateWebhook =>
    ({ S.setPayment id .succeeded with
        webhooks := S.webhooks ++ [⟨paymentId, id, true, .waiting⟩] },
      .ended (paymentResponse id paymentId "PROCESSING" "Final result will be delivered by webhook"))
  | .success | .timeout | .delayedSuccess =>
    (S.setPayment id .succeeded,
      .ended (paymentResponse id paymentId "SUCCEEDED" "Payment completed successfully"))

/-- `create_provider_payment` up to its first `await`; `timeout` and `delayed_success` sleep. -/
def createProviderPayment (P : Platform) (S : Provider) (id : String) (scenario : Scenario)
    (request : PaymentBody) : Provider × Handler :=
  let S := { S with payments := S.payments ++
    [⟨id, request.paymentId, request.amountCents, P.upper request.currency, .processing⟩] }
  if scenario = .timeout ∨ scenario = .delayedSuccess then (S, .asleep id)
  else finishProviderPayment S id request.paymentId scenario

/-- `retrieve_provider_payment`. -/
def retrieveProviderPayment (S : Provider) (id : String) : Response :=
  match S.payment? id with
  | none => errorResponse 404 "Provider payment not found"
  | some payment =>
    ⟨200, "", .ok (.obj [("provider_payment_id", .str payment.providerPaymentId),
      ("payment_id", .str payment.paymentId.text), ("amount_cents", .int payment.amountCents),
      ("currency", .str payment.currency), ("status", .str payment.status.text)])⟩

/-! ### Refunds -/

/-- `ProviderRefundRequest` accepts the body. -/
def RefundBody.valid (request : RefundBody) : Bool :=
  decide (0 < request.amountCents) && decide (request.currency.length = 3)

/-- The amounts of the successful refunds of a payment. -/
def Provider.alreadyRefunded (S : Provider) (providerPaymentId : String) : ℕ :=
  ((S.refunds.filter fun r =>
    r.providerPaymentId = providerPaymentId ∧ r.status = .succeeded).map (·.amountCents)).sum

/-- `create_provider_refund` after its record is made and it has slept, if it does. -/
def finishProviderRefund (S : Provider) (id : String) (request : RefundBody) :
    RefundScenario → Provider × Handler
  | .serverError => (S, .ended (errorResponse 503 "Simulated refund provider failure"))
  | .declined =>
    (S.setRefund id .failed,
      .ended (refundResponse id request "FAILED" "Refund declined by simulated provider"))
  | .success | .timeout =>
    (S.setRefund id .succeeded,
      .ended (refundResponse id request "SUCCEEDED" "Refund completed successfully"))

/-- What `create_provider_refund` refuses. -/
def refuseProviderRefund (P : Platform) (S : Provider) (request : RefundBody) : Option Response :=
  match S.payment? request.providerPaymentId with
  | none => some (errorResponse 404 "Provider payment not found")
  | some payment =>
    if payment.status ≠ .succeeded then
      some (errorResponse 409 "Only successful payments can be refunded")
    else if P.upper request.currency ≠ payment.currency then
      some (errorResponse 422 "Refund currency does not match payment currency")
    else
      let refundableAmount : ℤ := payment.amountCents - S.alreadyRefunded request.providerPaymentId
      if (request.amountCents : ℤ) > refundableAmount then
        some (errorResponse 422 "Refund amount exceeds refundable balance")
      else none

/-- `create_provider_refund` up to its `await`; `timeout` sleeps. -/
def createProviderRefund (P : Platform) (S : Provider) (id : String) (scenario : RefundScenario)
    (request : RefundBody) : Provider × Handler :=
  match refuseProviderRefund P S request with
  | some r => (S, .ended r)
  | none =>
    let S := { S with refunds := S.refunds ++
      [⟨id, request.refundId, request.providerPaymentId, request.amountCents,
        P.upper request.currency, .processing⟩] }
    if scenario = .timeout then (S, .asleep id) else finishProviderRefund S id request scenario

/-! ### Webhooks -/

/-- The payload of a webhook. -/
def webhookPayload (eventId : String) (paymentId : Uuid) (providerPaymentId : String) : Json :=
  .obj [("event_id", .str eventId), ("event_type", .str "payment.succeeded"),
    ("payment_id", .str paymentId.text), ("provider_payment_id", .str providerPaymentId),
    ("status", .str "SUCCEEDED")]

/-- The payload as `json.dumps(…, sort_keys=True, separators=(",", ":"))` writes it. -/
def webhookText (eventId : String) (paymentId : Uuid) (providerPaymentId : String) : String :=
  String.ofList ("\x7b\"event_id\":".toList ++ dumpsStr eventId ++
    ",\"event_type\":\"payment.succeeded\",\"payment_id\":".toList ++ dumpsStr paymentId.text ++
    ",\"provider_payment_id\":".toList ++ dumpsStr providerPaymentId ++
    ",\"status\":\"SUCCEEDED\"\x7d".toList)

/-- The request that delivers a webhook, with its signature. -/
def webhookCall (P : Platform) (eventId : String) (w : Webhook) : ReceiveWebhook :=
  let rawBody := (webhookText eventId w.paymentId w.providerPaymentId).toUTF8.data.toList
  ⟨rawBody, P.webhookHmac rawBody⟩

end Payflow.Model
