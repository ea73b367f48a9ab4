import Payflow.Model.Schema
import Payflow.Lib.Store
import Mathlib.Data.List.Sort

/-! # The statements

The SQL statements of the services: which locks each one waits for, what it answers and what it
writes. A statement sees the committed rows and those of its own transaction. The constraints of the
tables are checked where rows are inserted; the parent row of a foreign key is always one that the
transaction has locked or inserted before. The `uuid4()` among the arguments of an insert is drawn
with the statement. -/

namespace Payflow.Model

open Payflow.Lib

/-- The statements of the services. -/
inductive Stmt where
  | uuid4
  | selectPayment (id : Uuid)
  | selectPaymentByKey (merchantId idempotencyKey : String)
  | selectPaymentForUpdate (id : Uuid)
  | selectMerchantPaymentForUpdate (id : Uuid) (merchantId : String)
  | selectProcessingPayments
  | insertPayment (id : Uuid) (merchantId idempotencyKey requestHash userId : String)
      (amountCents : ℕ) (currency : String)
  | updatePayment (id : Uuid) (guard : PaymentStatus → Bool) (set : ℕ → PaymentCols → PaymentCols)
  | insertPaymentEvent (paymentId : Uuid) (eventType : EventType)
      (previousStatus : Option PaymentStatus) (newStatus : PaymentStatus) (metadata : Json)
  | insertPaymentEventSelect (paymentId : Uuid) (eventType : EventType) (metadata : Payment → Json)
  | selectRefund (id : Uuid)
  | selectRefundByKey (merchantId idempotencyKey : String)
  | selectRefundForUpdate (id : Uuid)
  | sumRefunds (paymentId : Uuid) (statuses : List RefundStatus)
  | insertRefund (id paymentId : Uuid) (merchantId idempotencyKey : String) (amountCents : ℕ)
      (currency : String)
  | updateRefund (id : Uuid) (guard : RefundStatus → Bool) (set : ℕ → RefundCols → RefundCols)
  | insertRefundEvent (refundId : Uuid) (eventType : EventType)
      (previousStatus : Option RefundStatus) (newStatus : RefundStatus) (metadata : Json)
  | insertWebhookEvent (providerEventId eventType : String) (payload : Json)
  | insertOutboxEvent (aggregateId : Uuid) (eventType : EventType) (payload : Json)

/-- What the statements answer. -/
def SRes : Stmt → Type
  | .uuid4 => Uuid
  | .selectPayment _ | .selectPaymentByKey _ _ | .selectPaymentForUpdate _
  | .selectMerchantPaymentForUpdate _ _ => Option Payment
  | .selectProcessingPayments => List Payment
  | .insertPayment _ _ _ _ _ _ _ => Except Exn (Option Payment)
  | .updatePayment _ _ _ | .insertPaymentEvent _ _ _ _ _ | .insertPaymentEventSelect _ _ _ => Unit
  | .selectRefund _ | .selectRefundByKey _ _ | .selectRefundForUpdate _ => Option Refund
  | .sumRefunds _ _ => ℕ
  | .insertRefund _ _ _ _ _ _ => Except Exn Refund
  | .updateRefund _ _ _ => Option Refund
  | .insertRefundEvent _ _ _ _ _ => Unit
  | .insertWebhookEvent _ _ _ => Option Uuid
  | .insertOutboxEvent _ _ _ => Unit

/-- One second, in the unit of the clock. -/
def second : ℕ := 1000000

/-- A text assigned to a `VARCHAR(n)` column: what is too long is refused, unless only spaces are
cut off. -/
def varchar (n : ℕ) (s : String) : Except Exn String :=
  if s.length ≤ n then .ok s
  else if (s.toList.drop n).all (· == ' ') then .ok (String.ofList (s.toList.take n))
  else .error (.dataError "value too long for type character varying")

/-- A new row of `payments`. -/
def newPayment (now : ℕ) (id : Uuid) (merchantId idempotencyKey requestHash userId : String)
    (amountCents : ℕ) (currency : String) : Payment where
  id := id
  merchantId := merchantId
  idempotencyKey := idempotencyKey
  requestHash := requestHash
  userId := userId
  amountCents := amountCents
  currency := currency
  createdAt := now
  status := .created
  providerPaymentId := none
  failureCode := none
  retryCount := 0
  version := 1
  updatedAt := now

/-- A new row of `refunds`. -/
def newRefund (now : ℕ) (id paymentId : Uuid) (merchantId idempotencyKey : String)
    (amountCents : ℕ) (currency : String) : Refund where
  id := id
  paymentId := paymentId
  merchantId := merchantId
  idempotencyKey := idempotencyKey
  amountCents := amountCents
  currency := currency
  createdAt := now
  status := .created
  providerRefundId := none
  failureCode := none
  retryCount := 0
  updatedAt := now

/-- `INSERT INTO payments … ON CONFLICT (merchant_id, idempotency_key) DO NOTHING RETURNING …`. -/
def execInsertPayment (now : ℕ) (D : Db) (id : Uuid)
    (merchantId idempotencyKey requestHash userId : String) (amountCents : ℕ) (currency : String) :
    Except Exn (Option Payment) × List Write :=
  if hasNul merchantId || hasNul idempotencyKey || hasNul userId || hasNul currency then
    (.error (.dataError "PostgreSQL text fields cannot contain NUL (0x00) bytes"), [])
  else
    match varchar 3 currency with
    | .error e => (.error e, [])
    | .ok currency =>
      if amountCents = 0 then (.error (.checkViolation "payments_amount_cents_check"), [])
      else if (D.paymentByKey? merchantId idempotencyKey).isSome then (.ok none, [])
      else if (D.payment? id).isSome then (.error (.uniqueViolation "payments_pkey"), [])
      else
        let row := newPayment now id merchantId idempotencyKey requestHash userId amountCents currency
        (.ok (some row), [.insertPayment row])

/-- `INSERT INTO refunds … RETURNING …`. -/
def execInsertRefund (now : ℕ) (D : Db) (id paymentId : Uuid) (merchantId idempotencyKey : String)
    (amountCents : ℕ) (currency : String) : Except Exn Refund × List Write :=
  if hasNul merchantId || hasNul idempotencyKey then
    (.error (.dataError "PostgreSQL text fields cannot contain NUL (0x00) bytes"), [])
  else if 255 < idempotencyKey.length then
    (.error (.dataError "value too long for type character varying"), [])
  else
    match varchar 3 currency with
    | .ok currency =>
      if amountCents = 0 then (.error (.checkViolation "refunds_amount_cents_check"), [])
      else if (D.refund? id).isSome then (.error (.uniqueViolation "refunds_pkey"), [])
      else if (D.refundByKey? merchantId idempotencyKey).isSome then
        (.error (.uniqueViolation "refunds_merchant_idempotency_unique"), [])
      else
        let row := newRefund now id paymentId merchantId idempotencyKey amountCents currency
        (.ok row, [.insertRefund row])
    | .error e => (.error e, [])

/-- The payments that reconciliation looks at, `ORDER BY updated_at LIMIT 100`; `tie` orders those
that were updated at the same time. -/
def processingPayments (tie : Uuid → ℕ) (now : ℕ) (D : Db) : List Payment :=
  ((D.payments.filter fun p => p.status = .processing && p.providerPaymentId.isSome &&
    decide (p.updatedAt + 10 * second < now)).insertionSort fun p q =>
      p.updatedAt < q.updatedAt ∨ p.updatedAt = q.updatedAt ∧ tie p.id ≤ tie q.id).take 100

/-- The row id that the statement draws, if it is new. -/
def drawn (v : Env Pick) (D : Db) : Option Uuid :=
  match v.pick with
  | .newId id => if id ∈ D.ids then none else some id
  | _ => none

/-- The locks a statement waits for. -/
def stmtLocks (v : Env Pick) (D : Db) : Stmt → List Lock
  | .uuid4 => (drawn v D).toList.map .newId
  | .selectPaymentForUpdate id => (D.payment? id).toList.map fun p => .payment p.id
  | .selectMerchantPaymentForUpdate id m =>
    ((D.payment? id).filter fun p => p.merchantId = m).toList.map fun p => .payment p.id
  | .insertPayment id m k _ _ _ _ =>
    if (D.paymentByKey? m k).isSome then [] else [.paymentKey m k, .newId id, .payment id]
  | .updatePayment id guard _ =>
    ((D.payment? id).filter fun p => guard p.status).toList.map fun p => .payment p.id
  | .insertPaymentEvent id _ _ _ _ | .insertPaymentEventSelect id _ _ =>
    .payment id :: (drawn v D).toList.map .newId
  | .selectRefundForUpdate id => (D.refund? id).toList.map fun r => .refund r.id
  | .insertRefund id p m k _ _ =>
    if (D.refundByKey? m k).isSome then [] else [.refundKey m k, .newId id, .refund id, .payment p]
  | .updateRefund id guard _ =>
    ((D.refund? id).filter fun r => guard r.status).toList.map fun r => .refund r.id
  | .insertRefundEvent id _ _ _ _ => .refund id :: (drawn v D).toList.map .newId
  | .insertWebhookEvent e _ _ =>
    if D.webhookEvents.any fun w => w.providerEventId = e then []
    else .webhookKey e :: (drawn v D).toList.map .newId
  | .insertOutboxEvent _ _ _ => (drawn v D).toList.map .newId
  | _ => []

/-- What a statement answers and writes. -/
def stmtExec (v : Env Pick) (D : Db) : (s : Stmt) → Option (SRes s × List Write)
  | .uuid4 => (drawn v D).map fun id => (id, [])
  | .selectPayment id => some (D.payment? id, [])
  | .selectPaymentByKey m k => some (D.paymentByKey? m k, [])
  | .selectPaymentForUpdate id => some (D.payment? id, [])
  | .selectMerchantPaymentForUpdate id m =>
    some ((D.payment? id).filter fun p => p.merchantId = m, [])
  | .selectProcessingPayments => some (processingPayments v.pick.tie v.now D, [])
  | .insertPayment id m k h u a c => some (execInsertPayment v.now D id m k h u a c)
  | .updatePayment id guard set =>
    match (D.payment? id).filter fun p => guard p.status with
    | some p => some ((), [.updatePayment id (set v.now p.toPaymentCols)])
    | none => some ((), [])
  | .insertPaymentEvent p type prev new metadata =>
    (drawn v D).map fun id => ((), [.insertPaymentEvent ⟨id, p, type, prev, new, metadata, v.now⟩])
  | .insertPaymentEventSelect p type metadata =>
    match D.payment? p with
    | some row => (drawn v D).map fun id =>
      ((), [.insertPaymentEvent ⟨id, p, type, some row.status, row.status, metadata row, v.now⟩])
    | none => some ((), [])
  | .selectRefund id => some (D.refund? id, [])
  | .selectRefundByKey m k => some (D.refundByKey? m k, [])
  | .selectRefundForUpdate id => some (D.refund? id, [])
  | .sumRefunds p statuses => some (D.refundTotal statuses p, [])
  | .insertRefund id p m k a c => some (execInsertRefund v.now D id p m k a c)
  | .updateRefund id guard set =>
    match (D.refund? id).filter fun r => guard r.status with
    | some r =>
      let cols := set v.now r.toRefundCols
      some (some { r with toRefundCols := cols }, [.updateRefund id cols])
    | none => some (none, [])
  | .insertRefundEvent r type prev new metadata =>
    (drawn v D).map fun id => ((), [.insertRefundEvent ⟨id, r, type, prev, new, metadata, v.now⟩])
  | .insertWebhookEvent e type payload =>
    if D.webhookEvents.any fun w => w.providerEventId = e then some (none, [])
    else (drawn v D).map fun id => (some id, [.insertWebhookEvent ⟨id, e, type, payload, v.now⟩])
  | .insertOutboxEvent aggregate type payload =>
    (drawn v D).map fun id => ((),
      [.insertOutboxEvent ⟨id, aggregate, type, payload, .pending, 0, v.now, v.now, none⟩])

/-- The database as a store of transactions. -/
def store : Store Db Write Lock Stmt Pick SRes where
  apply := Db.apply
  locks := stmtLocks
  exec := stmtExec

/-! ### The statements as programs -/

/-- The body of a `with get_connection()` block. -/
abbrev Tx (α : Type) := Prog Stmt SRes Exn α

def uuid4 : Tx Uuid := .perform Stmt.uuid4

def selectPayment (id : Uuid) : Tx (Option Payment) := .perform (Stmt.selectPayment id)

def selectPaymentByKey (merchantId idempotencyKey : String) : Tx (Option Payment) :=
  .perform (Stmt.selectPaymentByKey merchantId idempotencyKey)

def selectPaymentForUpdate (id : Uuid) : Tx (Option Payment) :=
  .perform (Stmt.selectPaymentForUpdate id)

def selectMerchantPaymentForUpdate (id : Uuid) (merchantId : String) : Tx (Option Payment) :=
  .perform (Stmt.selectMerchantPaymentForUpdate id merchantId)

def selectProcessingPayments : Tx (List Payment) := .perform Stmt.selectProcessingPayments

def insertPayment (id : Uuid) (merchantId idempotencyKey requestHash userId : String)
    (amountCents : ℕ) (currency : String) : Tx (Option Payment) :=
  .op (.insertPayment id merchantId idempotencyKey requestHash userId amountCents currency)
    .ofExcept

/-- `UPDATE payments SET … WHERE id = …`. -/
def updatePayment (id : Uuid) (set : ℕ → PaymentCols → PaymentCols) : Tx Unit :=
  .perform (Stmt.updatePayment id (fun _ => true) set)

/-- `UPDATE payments SET … WHERE id = … AND status = …`. -/
def updatePaymentIf (id : Uuid) (status : PaymentStatus) (set : ℕ → PaymentCols → PaymentCols) :
    Tx Unit :=
  .perform (Stmt.updatePayment id (· = status) set)

def insertPaymentEvent (paymentId : Uuid) (eventType : EventType)
    (previousStatus : Option PaymentStatus) (newStatus : PaymentStatus)
    (metadata : Json) : Tx Unit :=
  .perform (Stmt.insertPaymentEvent paymentId eventType previousStatus newStatus metadata)

/-- `INSERT INTO payment_events (…) SELECT …, status, status, … FROM payments WHERE id = …`. -/
def insertPaymentEventSelect (paymentId : Uuid) (eventType : EventType)
    (metadata : Payment → Json) : Tx Unit :=
  .perform (Stmt.insertPaymentEventSelect paymentId eventType metadata)

def selectRefund (id : Uuid) : Tx (Option Refund) := .perform (Stmt.selectRefund id)

def selectRefundByKey (merchantId idempotencyKey : String) : Tx (Option Refund) :=
  .perform (Stmt.selectRefundByKey merchantId idempotencyKey)

def selectRefundForUpdate (id : Uuid) : Tx (Option Refund) := .perform
    (Stmt.selectRefundForUpdate id)

def sumRefunds (paymentId : Uuid) (statuses : List RefundStatus) : Tx ℕ :=
  .perform (Stmt.sumRefunds paymentId statuses)

def insertRefund (id paymentId : Uuid) (merchantId idempotencyKey : String) (amountCents : ℕ)
    (currency : String) : Tx Refund :=
  .op (.insertRefund id paymentId merchantId idempotencyKey amountCents currency) .ofExcept

/-- `UPDATE refunds SET … WHERE id = …`. -/
def updateRefund (id : Uuid) (set : ℕ → RefundCols → RefundCols) : Tx (Option Refund) :=
  .perform (Stmt.updateRefund id (fun _ => true) set)

/-- `UPDATE refunds SET … WHERE id = … AND status = … RETURNING …`. -/
def updateRefundIf (id : Uuid) (status : RefundStatus) (set : ℕ → RefundCols → RefundCols) :
    Tx (Option Refund) :=
  .perform (Stmt.updateRefund id (· = status) set)

def insertRefundEvent (refundId : Uuid) (eventType : EventType)
    (previousStatus : Option RefundStatus) (newStatus : RefundStatus) (metadata : Json) : Tx Unit :=
  .perform (Stmt.insertRefundEvent refundId eventType previousStatus newStatus metadata)

/-- `INSERT INTO webhook_events … ON CONFLICT (provider_event_id) DO NOTHING RETURNING id`. -/
def insertWebhookEvent (providerEventId eventType : String) (payload : Json) : Tx (Option Uuid) :=
  .perform (Stmt.insertWebhookEvent providerEventId eventType payload)

def insertOutboxEvent (aggregateId : Uuid) (eventType : EventType) (payload : Json) : Tx Unit :=
  .perform (Stmt.insertOutboxEvent aggregateId eventType payload)

end Payflow.Model
