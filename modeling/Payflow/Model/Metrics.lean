import Payflow.Model.Sql

/-! # The business metrics

`business_metrics` of `metrics.py`: six statements, and a page in the text format of Prometheus. -/

namespace Payflow.Model

open Payflow.Lib

/-- The values of `payment_status`, as they are ordered. -/
def PaymentStatus.values : List PaymentStatus :=
  [.created, .processing, .succeeded, .failed, .refundPending, .refunded]

/-- The values of `refunds.status`, ordered as texts. -/
def RefundStatus.values : List RefundStatus := [.created, .failed, .processing, .succeeded]

/-- The values of `outbox_events.status`, ordered as texts. -/
def OutboxStatus.values : List OutboxStatus := [.pending, .published]

/-- The text of the status of an outbox row. -/
def OutboxStatus.text : OutboxStatus → String
  | pending => "PENDING"
  | published => "PUBLISHED"

/-- `SELECT status, COUNT(*) AS total FROM … GROUP BY status ORDER BY status`. -/
def countByStatus {α σ : Type} [DecidableEq σ] (values : List σ) (status : α → σ) (rows : List α) :
    List (σ × ℕ) :=
  (values.map fun v => (v, rows.countP fun row => status row = v)).filter fun x => x.2 ≠ 0

/-- What the statements find. -/
structure BusinessCounts where
  paymentCounts : List (PaymentStatus × ℕ)
  refundCounts : List (RefundStatus × ℕ)
  paymentRetryTotal : ℕ
  refundRetryTotal : ℕ
  successfulRefundAmount : ℕ
  outboxCounts : List (OutboxStatus × ℕ)

/-- The statements of `business_metrics`: each sees what is committed when it begins. The last one is
given the rows of `outbox_events`, with what the publisher has made of them. -/
def businessCounts (D₁ D₂ D₃ D₄ D₅ : Db) (outbox : List OutboxEvent) : BusinessCounts where
  paymentCounts := countByStatus PaymentStatus.values (·.status) D₁.payments
  refundCounts := countByStatus RefundStatus.values (·.status) D₂.refunds
  paymentRetryTotal := total (fun _ => true) (·.retryCount) D₃.payments
  refundRetryTotal := total (fun _ => true) (·.retryCount) D₄.refunds
  successfulRefundAmount := total (·.status = .succeeded) (·.amountCents) D₅.refunds
  outboxCounts := countByStatus OutboxStatus.values (·.status) outbox

/-- The line of a status. -/
def statusLine {σ : Type} (name : String) (text : σ → String) (row : σ × ℕ) : String :=
  name ++ "\x7bstatus=\"" ++ text row.1 ++ "\"\x7d " ++ toString row.2

/-- The lines of the page. -/
def BusinessCounts.lines (c : BusinessCounts) : List String :=
  ["# HELP payment_gateway_payments_total Payments grouped by current status.",
    "# TYPE payment_gateway_payments_total gauge"] ++
  c.paymentCounts.map (statusLine "payment_gateway_payments_total" PaymentStatus.text) ++
  ["# HELP payment_gateway_refunds_total Refunds grouped by current status.",
    "# TYPE payment_gateway_refunds_total gauge"] ++
  c.refundCounts.map (statusLine "payment_gateway_refunds_total" RefundStatus.text) ++
  ["# HELP payment_gateway_payment_retries_total Total payment retry attempts.",
    "# TYPE payment_gateway_payment_retries_total gauge"] ++
  ["payment_gateway_payment_retries_total " ++ toString c.paymentRetryTotal] ++
  ["# HELP payment_gateway_refund_retries_total Total refund retry attempts.",
    "# TYPE payment_gateway_refund_retries_total gauge"] ++
  ["payment_gateway_refund_retries_total " ++ toString c.refundRetryTotal] ++
  ["# HELP payment_gateway_refunded_amount_cents_total Total successfully refunded amount in cents.",
    "# TYPE payment_gateway_refunded_amount_cents_total gauge"] ++
  ["payment_gateway_refunded_amount_cents_total " ++ toString c.successfulRefundAmount] ++
  ["# HELP payment_gateway_outbox_events_total Outbox events grouped by status.",
    "# TYPE payment_gateway_outbox_events_total gauge"] ++
  c.outboxCounts.map (statusLine "payment_gateway_outbox_events_total" OutboxStatus.text)

/-- The content of the response of `business_metrics`. -/
def businessMetrics (D₁ D₂ D₃ D₄ D₅ : Db) (outbox : List OutboxEvent) : String :=
  String.intercalate "\n" (businessCounts D₁ D₂ D₃ D₄ D₅ outbox).lines ++ "\n"

end Payflow.Model
