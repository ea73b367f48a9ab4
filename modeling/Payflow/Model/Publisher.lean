import Mathlib.Algebra.GroupWithZero.Nat
import Mathlib.Data.List.Lex
import Payflow.Model.System
import Payflow.Lib.Steps

/-! # The outbox publisher

`publish_pending_outbox_events`, in any number of invocations beside the rest of the system. An
invocation is a transaction. Its `SELECT` takes a snapshot of the rows, sorts it, and locks the rows
one by one: it skips a row that another invocation has locked, and of the others it takes those
whose newest committed version still satisfies the condition. What an `XADD` appends to the stream
stays there, whether the transaction commits or not. -/

namespace Payflow.Model

open Payflow.Lib

/-! ### The entry of an event -/

/-- The text of an event type. -/
def EventType.text : EventType → String
  | paymentCreated => "PAYMENT_CREATED"
  | paymentProcessing => "PAYMENT_PROCESSING"
  | paymentSucceeded => "PAYMENT_SUCCEEDED"
  | paymentFailed => "PAYMENT_FAILED"
  | paymentAwaitingWebhook => "PAYMENT_AWAITING_WEBHOOK"
  | paymentRetryScheduled => "PAYMENT_RETRY_SCHEDULED"
  | paymentReconciledSucceeded => "PAYMENT_RECONCILED_SUCCEEDED"
  | paymentReconciledFailed => "PAYMENT_RECONCILED_FAILED"
  | paymentRefundPending => "PAYMENT_REFUND_PENDING"
  | paymentRefunded => "PAYMENT_REFUNDED"
  | paymentPartiallyRefunded => "PAYMENT_PARTIALLY_REFUNDED"
  | refundCreated => "REFUND_CREATED"
  | refundProcessing => "REFUND_PROCESSING"
  | refundSucceeded => "REFUND_SUCCEEDED"
  | refundFailed => "REFUND_FAILED"
  | refundRetryScheduled => "REFUND_RETRY_SCHEDULED"

/-- The order of the keys of a `jsonb` object: shorter ones first, then by their bytes. -/
def jsonbKeyLe (a b : String) : Bool :=
  let size := fun s : String => (s.toList.map Char.utf8Size).sum
  size a < size b || size a = size b && a.toList.map Char.toNat ≤ b.toList.map Char.toNat

namespace Json

mutual

/-- The value as `jsonb` gives it back. -/
def jsonb : Json → Json
  | arr l => arr (jsonbItems l)
  | obj l => obj ((jsonbFields l).insertionSort fun a b => jsonbKeyLe a.1 b.1)
  | v => v

def jsonbItems : List Json → List Json
  | [] => []
  | v :: l => v.jsonb :: jsonbItems l

def jsonbFields : List (String × Json) → List (String × Json)
  | [] => []
  | (k, v) :: l => (k, v.jsonb) :: jsonbFields l

end

mutual

/-- `json.dumps(value, separators=(",", ":"))`. -/
def dumps : Json → List Char
  | null => "null".toList
  | bool b => (if b then "true" else "false").toList
  | int n => (toString n).toList
  | float t => t.toList
  | str s => dumpsStr s
  | arr l => '[' :: (dumpsItems l ++ [']'])
  | obj l => '\x7b' :: (dumpsFields l ++ ['\x7d'])

def dumpsItems : List Json → List Char
  | [] => []
  | [v] => v.dumps
  | v :: l => v.dumps ++ ',' :: dumpsItems l

def dumpsFields : List (String × Json) → List Char
  | [] => []
  | [(k, v)] => dumpsStr k ++ ':' :: v.dumps
  | (k, v) :: l => dumpsStr k ++ ':' :: v.dumps ++ ',' :: dumpsFields l

end

end Json

/-- The number in at least `width` digits. -/
def zeroPadded (width n : ℕ) : List Char :=
  let digits := (toString n).toList
  List.replicate (width - digits.length) '0' ++ digits

/-- `datetime.isoformat()` of a `TIMESTAMPTZ` in UTC; the clock counts from 1970. -/
def isoformat (t : ℕ) : String :=
  let seconds := t / second
  -- days since 0000-03-01, in eras of 400 years
  let z := seconds / 86400 + 719468
  let doe := z % 146097
  let yoe := (doe - doe / 1460 + doe / 36524 - doe / 146096) / 365
  let doy := doe - (365 * yoe + yoe / 4 - yoe / 100)
  let mp := (5 * doy + 2) / 153
  let month := if mp < 10 then mp + 3 else mp - 9
  let year := yoe + z / 146097 * 400 + if month ≤ 2 then 1 else 0
  let fraction := if t % second = 0 then [] else '.' :: zeroPadded 6 (t % second)
  String.ofList (zeroPadded 4 year ++ '-' :: zeroPadded 2 month ++
    '-' :: zeroPadded 2 (doy - (153 * mp + 2) / 5 + 1) ++
      'T' :: zeroPadded 2 (seconds % 86400 / 3600) ++
    ':' :: zeroPadded 2 (seconds % 3600 / 60) ++ ':' :: zeroPadded 2 (seconds % 60) ++ fraction ++
    "+00:00".toList)

/-- An entry of the stream. -/
structure StreamEntry where
  eventId : String
  aggregateId : String
  eventType : String
  payload : String
  createdAt : String
  deriving DecidableEq

/-- The entry that is added for an event. -/
def streamEntry (event : OutboxEvent) : StreamEntry where
  eventId := event.id.text
  aggregateId := event.aggregateId.text
  eventType := event.eventType.text
  payload := String.ofList event.payload.jsonb.dumps
  createdAt := isoformat event.createdAt

/-! ### The rows -/

/-- The columns of `outbox_events` that are updated. -/
structure OutboxCols where
  status : OutboxStatus
  attempts : ℕ
  availableAt : ℕ
  publishedAt : Option ℕ

/-- The row with other values in these columns. -/
def OutboxEvent.set (row : OutboxEvent) (cols : OutboxCols) : OutboxEvent :=
  { row with
    status := cols.status
    attempts := cols.attempts
    availableAt := cols.availableAt
    publishedAt := cols.publishedAt }

/-- An `UPDATE` of an event, by an invocation that started at the given time. -/
structure Mark where
  event : Uuid
  startedAt : ℕ
  cols : OutboxCols

/-- The last update of an event. -/
def lastMark (marks : List Mark) (event : Uuid) : Option Mark :=
  marks.reverse.find? fun m => m.event = event

/-- The row after the updates. -/
def marked (marks : List Mark) (row : OutboxEvent) : OutboxEvent :=
  match lastMark marks row.id with
  | some m => row.set m.cols
  | none => row

/-- `status = 'PENDING' AND published_at IS NULL AND available_at <= NOW()`. -/
def isDue (now : ℕ) (row : OutboxEvent) : Bool :=
  row.status = .pending && row.publishedAt.isNone && decide (row.availableAt ≤ now)

/-- The rows of the snapshot that satisfy the condition, `ORDER BY created_at ASC`; `tie` orders
those that were created at the same time. -/
def dueEvents (now : ℕ) (tie : Uuid → ℕ) (rows : List OutboxEvent) : List OutboxEvent :=
  (rows.filter (isDue now)).insertionSort fun a b =>
    a.createdAt < b.createdAt ∨ a.createdAt = b.createdAt ∧ tie a.id ≤ tie b.id

/-- The columns after `UPDATE outbox_events SET status = 'PUBLISHED', …`;
`attempts` is an `INTEGER`. -/
def publishedCols (now : ℕ) (row : OutboxEvent) : Option OutboxCols :=
  if row.attempts + 1 < 2 ^ 31 then
    some ⟨.published, row.attempts + 1, row.availableAt, some now⟩
  else none

/-- The columns after `UPDATE outbox_events SET attempts = attempts + 1, available_at = …`; `POWER`
is computed in double precision, and refuses what is too large for it. -/
def backoffCols (now : ℕ) (row : OutboxEvent) : Option OutboxCols :=
  if row.attempts + 1 < 2 ^ 31 ∧ row.attempts + 1 < 1024 then
    some ⟨row.status, row.attempts + 1, now + min (2 ^ (row.attempts + 1)) 300 * second,
      row.publishedAt⟩
  else none

/-! ### The invocations -/

/-- Where an invocation is. -/
inductive PublisherPhase where
  | started
  | locking (candidates : List OutboxEvent)
  | publishing
  | updating (event : OutboxEvent) (added : Bool)
  | committed
  | rolledBack

/-- An invocation: its argument, the time of its transaction, where it is, the rows it has locked,
the events it has selected and not yet tried, its updates, and what it counts. -/
structure Publisher where
  batchSize : ℕ
  now : ℕ
  phase : PublisherPhase
  locks : List Uuid
  events : List OutboxEvent
  marks : List Mark
  selected : ℕ
  published : ℕ
  failed : ℕ

/-- What `XADD` does: it returns, or raises a `RedisError`, with the entry appended or not. -/
inductive XaddReply where
  | returned
  | redisError (appended : Bool)
  deriving DecidableEq

def XaddReply.appended : XaddReply → Bool
  | returned => true
  | redisError appended => appended

/-- What an invocation does next. Its select breaks ties in some way. It may be killed at any time,
or raise another exception, and is rolled back then. -/
inductive PublisherAction where
  | select (tie : Uuid → ℕ)
  | lock
  | xadd (reply : XaddReply)
  | update
  | commit
  | rollback

/-- What `publish_pending_outbox_events` returns. -/
structure PublishResult where
  selected : ℕ
  published : ℕ
  failed : ℕ
  stream : String
  deriving DecidableEq

def outboxStream : String := "payment-events"

def Publisher.result (p : Publisher) : Option PublishResult :=
  match p.phase with
  | .committed => some ⟨p.selected, p.published, p.failed, outboxStream⟩
  | _ => none

/-- The end of the transaction: no locks are held any more. -/
def Publisher.finish (p : Publisher) (phase : PublisherPhase) : Publisher :=
  { p with phase := phase, locks := [], events := [], marks := [] }

/-- The invocation that begins. -/
def publishPendingOutboxEvents (now batchSize : ℕ) : Publisher :=
  ⟨batchSize, now, .started, [], [], [], 0, 0, 0⟩

/-- The system with the publisher: the committed updates of `outbox_events`, the stream, and the
invocations by number. -/
structure OutboxState (P : Platform) where
  app : State P
  marks : List Mark
  stream : List StreamEntry
  publishers : List Publisher

inductive OutboxAction (P : Platform) where
  | app (a : Action (Start P) Pick)
  | publish (batchSize : ℕ)
  | publisher (i : ℕ) (a : PublisherAction)

namespace OutboxState

variable {P : Platform}

/-- The committed rows. -/
def rows (s : OutboxState P) : List OutboxEvent := s.app.db.outboxEvents.map (marked s.marks)

/-- Another invocation has locked the row. -/
def locked (s : OutboxState P) (i : ℕ) (event : Uuid) : Bool :=
  (s.publishers.eraseIdx i).any fun p => p.locks.contains event

/-- The next step of an invocation: what becomes of it, what it appends to the stream, and what it
commits. -/
def advance (s : OutboxState P) (i : ℕ) (p : Publisher) :
    PublisherAction → Option (Publisher × List StreamEntry × List Mark)
  | .select tie =>
    match p.phase with
    | .started => some ({ p with phase := .locking (dueEvents p.now tie s.rows) }, [], [])
    | _ => none
  | .lock =>
    match p.phase with
    | .locking [] => some ({ p with phase := .publishing }, [], [])
    | .locking (c :: cs) =>
      if p.batchSize ≤ p.selected then some ({ p with phase := .publishing }, [], [])
      else if s.locked i c.id then some ({ p with phase := .locking cs }, [], [])
      else
        let row := marked s.marks c
        if isDue p.now row then
          some ({ p with
            phase := .locking cs
            locks := p.locks ++ [c.id]
            events := p.events ++ [row]
            selected := p.selected + 1 }, [], [])
        else some ({ p with phase := .locking cs, locks := p.locks ++ [c.id] }, [], [])
    | _ => none
  | .xadd reply =>
    match p.phase, p.events with
    | .publishing, event :: events =>
      some ({ p with phase := .updating event (reply = .returned), events := events },
        if reply.appended then [streamEntry event] else [], [])
    | _, _ => none
  | .update =>
    match p.phase with
    | .updating event added =>
      let row := marked (s.marks ++ p.marks) event
      match if added then publishedCols p.now row else backoffCols p.now row with
      | some cols => some ({ p with
          phase := .publishing
          marks := p.marks ++ [⟨event.id, p.now, cols⟩]
          published := p.published + if added then 1 else 0
          failed := p.failed + if added then 0 else 1 }, [], [])
      | none => some (p.finish .rolledBack, [], [])
    | _ => none
  | .commit =>
    match p.phase, p.events with
    | .publishing, [] => some (p.finish .committed, [], p.marks)
    | _, _ => none
  | .rollback =>
    match p.phase with
    | .committed | .rolledBack => none
    | _ => some (p.finish .rolledBack, [], [])

/-- One step of the whole. -/
def step (s : OutboxState P) : OutboxAction P → Option (OutboxState P)
  | .app a =>
    match (payflow P).step s.app a with
    | some app => some { s with app := app }
    | none => none
  | .publish batchSize =>
    some { s with publishers := s.publishers ++ [publishPendingOutboxEvents s.app.clock batchSize] }
  | .publisher i a =>
    match s.publishers[i]? with
    | some p =>
      match s.advance i p a with
      | some (p', entries, marks) => some { s with
          marks := s.marks ++ marks
          stream := s.stream ++ entries
          publishers := s.publishers.set i p' }
      | none => none
    | none => none

/-- Before the first request. -/
def init (P : Platform) : OutboxState P := ⟨Model.init P, [], [], []⟩

end OutboxState

/-- The states the system and the publisher reach while their steps meet a condition. -/
abbrev OutboxReachable (P : Platform) (C : OutboxState P → OutboxAction P → Prop)
    (s : OutboxState P) : Prop :=
  Reaches OutboxState.step C (OutboxState.init P) s

/-! ### Scripts -/

abbrev OutboxAct := OutboxAction examplePlatform

/-- Actions of the rest of the system. -/
def appScript (as : List Act) : List OutboxAct := as.map .app

/-- The invocation `i` begins and selects from `n` rows. -/
def selectScript (i n : ℕ) : List OutboxAct :=
  [.publish 100, .publisher i (.select fun _ => 0)] ++ List.replicate (n + 1) (.publisher i .lock)

/-- It adds events to the stream, with these replies. -/
def addScript (i : ℕ) (replies : List XaddReply) : List OutboxAct :=
  replies.flatMap fun reply => [.publisher i (.xadd reply), .publisher i .update]

/-- A payment is made, and the first of its two events cannot be added. -/
def firstFails : List OutboxAct :=
  appScript onePayment ++ selectScript 0 2 ++
    addScript 0 [.redisError false, .returned] ++ [.publisher 0 .commit]

/-- Two invocations select the two events of a payment, and the first one publishes them. -/
def overlapping : List OutboxAct :=
  appScript onePayment ++
    [.publish 100, .publish 100, .publisher 0 (.select fun _ => 0),
      .publisher 1 (.select fun _ => 0)] ++
    List.replicate 3 (.publisher 0 .lock) ++ addScript 0 [.returned, .returned] ++
    [.publisher 0 .commit] ++ List.replicate 3 (.publisher 1 .lock) ++ [.publisher 1 .commit]

end Payflow.Model
