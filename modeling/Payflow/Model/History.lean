import Payflow.Model.Sql
import Mathlib.Data.List.Sort

/-! # What a merchant is shown

`retrieve_payment_events` of `payments.py` and `retrieve_refund_events` of `refunds.py`, which first
look for the payment or refund of the merchant as `retrieve_payment` and `retrieve_refund` do. -/

namespace Payflow.Model

/-- `retrieve_payment_events`. Its first statement finds the committed rows of `D₁`, its second one
those of `D₂`, `ORDER BY created_at ASC`; `tie` orders what was created at the same time. -/
def retrievePaymentEvents (tie : Uuid → ℕ) (D₁ D₂ : Db) (paymentId : Uuid) (merchantId : String) :
    Except Exn (List PaymentEvent) :=
  match (D₁.payment? paymentId).filter fun p => p.merchantId = merchantId with
  | none => .error (.httpException 404 (.str "Payment not found"))
  | some _ =>
    .ok ((D₂.paymentEvents.filter fun e => e.paymentId = paymentId).insertionSort fun a b =>
      a.createdAt < b.createdAt ∨ a.createdAt = b.createdAt ∧ tie a.id ≤ tie b.id)

/-- `retrieve_refund_events`, likewise. -/
def retrieveRefundEvents (tie : Uuid → ℕ) (D₁ D₂ : Db) (refundId : Uuid) (merchantId : String) :
    Except Exn (List RefundEvent) :=
  match (D₁.refund? refundId).filter fun r => r.merchantId = merchantId with
  | none => .error (.httpException 404 (.str "Refund not found"))
  | some _ =>
    .ok ((D₂.refundEvents.filter fun e => e.refundId = refundId).insertionSort fun a b =>
      a.createdAt < b.createdAt ∨ a.createdAt = b.createdAt ∧ tie a.id ≤ tie b.id)

end Payflow.Model
