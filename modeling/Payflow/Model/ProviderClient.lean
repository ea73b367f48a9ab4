import Payflow.Model.Calls

/-! # provider_client.py

The requests to the payment provider and what their outcomes become for the callers. -/

namespace Payflow.Model

open Payflow.Lib

/-- The common shape of the three requests: `transient` for a timeout or a network error,
`unavailable` for a status code from 500 on, `rejected` for one from 400 on. -/
def providerResponse (transient : String) (unavailable : ℕ → String)
    (rejected : ℕ → String → String) : HttpOutcome → Proc Json
  | .timeoutException | .networkError => .raise (.transientProviderError transient)
  | .otherError name => .raise (.httpxError name)
  | .response statusCode text json =>
    if statusCode ≥ 500 then .raise (.transientProviderError (unavailable statusCode))
    else if statusCode ≥ 400 then .raise (.permanentProviderError (rejected statusCode text))
    else .ofExcept json

def sendPaymentToProvider (scenario : Scenario) (json : PaymentBody) : Proc Json :=
  .op (Call.ext (Ext.postPayment scenario json)) <|
    providerResponse "Provider request timed out or encountered a network error"
      (fun statusCode => "Provider temporarily unavailable: " ++ toString statusCode)
      (fun _ text => "Provider rejected request: " ++ text)

def getProviderPayment (providerPaymentId : String) : Proc Json :=
  .op (Call.ext (Ext.getPayment providerPaymentId)) <|
    providerResponse "Unable to retrieve provider payment"
      (fun _ => "Provider temporarily unavailable")
      (fun statusCode text =>
        if statusCode = 404 then "Provider payment was not found"
        else "Provider lookup failed: " ++ text)

def sendRefundToProvider (scenario : RefundScenario) (json : RefundBody) : Proc Json :=
  .op (Call.ext (Ext.postRefund scenario json)) <|
    providerResponse "Unable to reach provider refund service"
      (fun _ => "Provider refund service is temporarily unavailable")
      (fun _ text => "Provider refund failed: " ++ text)

end Payflow.Model
