import Payflow.Model.Values
import Payflow.Lib.Table

/-! # The tables

The tables of `schema.sql` and of `004_create_refunds.sql`, with the columns that are set once and
the columns that an `UPDATE` may set (`PaymentCols`, `RefundCols`), the writes that statements make,
and the locks that protect them. -/

namespace Payflow.Model

open Payflow.Lib

/-- The columns of `payments` that are updated. -/
structure PaymentCols where
  status : PaymentStatus
  providerPaymentId : Option String
  failureCode : Option String
  retryCount : ℕ
  version : ℕ
  updatedAt : ℕ

/-- A row of `payments`. -/
structure Payment extends PaymentCols where
  id : Uuid
  merchantId : String
  idempotencyKey : String
  requestHash : String
  userId : String
  amountCents : ℕ
  currency : String
  createdAt : ℕ

/-- The columns of `refunds` that are updated. -/
structure RefundCols where
  status : RefundStatus
  providerRefundId : Option String
  failureCode : Option String
  retryCount : ℕ
  updatedAt : ℕ

/-- A row of `refunds`. -/
structure Refund extends RefundCols where
  id : Uuid
  paymentId : Uuid
  merchantId : String
  idempotencyKey : String
  amountCents : ℕ
  currency : String
  createdAt : ℕ

/-- A row of `payment_events`. -/
structure PaymentEvent where
  id : Uuid
  paymentId : Uuid
  eventType : EventType
  previousStatus : Option PaymentStatus
  newStatus : PaymentStatus
  metadata : Json
  createdAt : ℕ

/-- A row of `refund_events`. -/
structure RefundEvent where
  id : Uuid
  refundId : Uuid
  eventType : EventType
  previousStatus : Option RefundStatus
  newStatus : RefundStatus
  metadata : Json
  createdAt : ℕ

/-- A row of `webhook_events`, which is inserted as processed. -/
structure WebhookEvent where
  id : Uuid
  providerEventId : String
  eventType : String
  payload : Json
  processedAt : ℕ

/-- The status of an outbox row. -/
inductive OutboxStatus where
  | pending | published
  deriving DecidableEq, Repr

/-- A row of `outbox_events`. -/
structure OutboxEvent where
  id : Uuid
  aggregateId : Uuid
  eventType : EventType
  payload : Json
  status : OutboxStatus
  attempts : ℕ
  availableAt : ℕ
  createdAt : ℕ
  publishedAt : Option ℕ

/-- The database. -/
structure Db where
  payments : List Payment
  paymentEvents : List PaymentEvent
  webhookEvents : List WebhookEvent
  outboxEvents : List OutboxEvent
  refunds : List Refund
  refundEvents : List RefundEvent

/-- The database right after the migrations. -/
def Db.empty : Db := ⟨[], [], [], [], [], []⟩

/-- What a statement writes. -/
inductive Write where
  | insertPayment (row : Payment)
  | updatePayment (id : Uuid) (cols : PaymentCols)
  | insertPaymentEvent (row : PaymentEvent)
  | insertWebhookEvent (row : WebhookEvent)
  | insertOutboxEvent (row : OutboxEvent)
  | insertRefund (row : Refund)
  | updateRefund (id : Uuid) (cols : RefundCols)
  | insertRefundEvent (row : RefundEvent)

/-- The locks: a row of `payments` or `refunds`, an entry of the unique index on the keys of
`payments`, `refunds` or `webhook_events`, and an id that is about to be used for a new row. -/
inductive Lock where
  | payment (id : Uuid)
  | refund (id : Uuid)
  | paymentKey (merchantId idempotencyKey : String)
  | refundKey (merchantId idempotencyKey : String)
  | webhookKey (providerEventId : String)
  | newId (id : Uuid)
  deriving DecidableEq

namespace Db

/-- `SELECT … FROM payments WHERE id = …`. -/
def payment? (D : Db) (id : Uuid) : Option Payment := D.payments.find? fun p => p.id = id

/-- `SELECT … FROM payments WHERE merchant_id = … AND idempotency_key = …`. -/
def paymentByKey? (D : Db) (m k : String) : Option Payment :=
  D.payments.find? fun p => (p.merchantId, p.idempotencyKey) = (m, k)

/-- `SELECT … FROM refunds WHERE id = …`. -/
def refund? (D : Db) (id : Uuid) : Option Refund := D.refunds.find? fun r => r.id = id

/-- `SELECT … FROM refunds WHERE merchant_id = … AND idempotency_key = …`. -/
def refundByKey? (D : Db) (m k : String) : Option Refund :=
  D.refunds.find? fun r => (r.merchantId, r.idempotencyKey) = (m, k)

/-- `SELECT COALESCE(SUM(amount_cents) FILTER (WHERE status IN …), 0) FROM refunds
WHERE payment_id = …`. -/
def refundTotal (D : Db) (statuses : List RefundStatus) (paymentId : Uuid) : ℕ :=
  total (fun r => r.paymentId = paymentId && statuses.contains r.status) (·.amountCents) D.refunds

/-- The refunds of a payment. -/
def refundsOf (D : Db) (paymentId : Uuid) : List Refund :=
  D.refunds.filter fun r => r.paymentId = paymentId

/-- The ids of all rows. -/
def ids (D : Db) : List Uuid :=
  D.payments.map (·.id) ++ D.refunds.map (·.id) ++ D.paymentEvents.map (·.id) ++
    D.refundEvents.map (·.id) ++ D.webhookEvents.map (·.id) ++ D.outboxEvents.map (·.id)

/-- One write. -/
def apply (D : Db) : Write → Db
  | .insertPayment row => { D with payments := D.payments ++ [row] }
  | .updatePayment id cols =>
    { D with payments :=
        setWhere (fun p => p.id = id) (fun p => { p with toPaymentCols := cols }) D.payments }
  | .insertPaymentEvent row => { D with paymentEvents := D.paymentEvents ++ [row] }
  | .insertWebhookEvent row => { D with webhookEvents := D.webhookEvents ++ [row] }
  | .insertOutboxEvent row => { D with outboxEvents := D.outboxEvents ++ [row] }
  | .insertRefund row => { D with refunds := D.refunds ++ [row] }
  | .updateRefund id cols =>
    { D with refunds :=
        setWhere (fun r => r.id = id) (fun r => { r with toRefundCols := cols }) D.refunds }
  | .insertRefundEvent row => { D with refundEvents := D.refundEvents ++ [row] }

end Db

end Payflow.Model
