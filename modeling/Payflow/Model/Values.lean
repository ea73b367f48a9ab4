import Payflow.Model.Uuid
import Mathlib.Data.Int.Notation

/-! # Values, exceptions and the outside platform

The JSON values the services exchange and store, the exceptions they raise, the statuses and event
names, and the functions of the platform (Unicode, SHA-256, HMAC, the JSON parser, the conversions
of PostgreSQL) that the code only calls. -/

namespace Payflow.Model

/-- A JSON value; a number that is no integer is kept as its text, and in a text a lone surrogate,
which cannot be stored either, is kept as NUL. -/
inductive Json where
  | null
  | bool (b : Bool)
  | int (n : ℤ)
  | float (text : String)
  | str (s : String)
  | arr (l : List Json)
  | obj (l : List (String × Json))

/-- The exceptions of the application, of psycopg, httpx, redis and Celery that
its code can meet. -/
inductive Exn where
  | httpException (statusCode : ℕ) (detail : Json)
  | valueError (message : String)
  | transientProviderError (message : String)
  | permanentProviderError (message : String)
  | keyError (key : String)
  | typeError (message : String)
  | jsonDecodeError
  | unicodeDecodeError
  | httpxError (name : String)
  | redisError
  | uniqueViolation (constraint : String)
  | notNullViolation (column : String)
  | checkViolation (constraint : String)
  | dataError (message : String)
  | programmingError (message : String)
  | kombuError
  | retry

/-- `payment_status`. -/
inductive PaymentStatus where
  | created | processing | succeeded | failed | refundPending | refunded
  deriving DecidableEq, Repr

/-- The values that `refunds_status_check` allows. -/
inductive RefundStatus where
  | created | processing | succeeded | failed
  deriving DecidableEq, Repr

/-- The event types that are written to the ledgers and the outbox. -/
inductive EventType where
  | paymentCreated | paymentProcessing | paymentSucceeded | paymentFailed | paymentAwaitingWebhook
  | paymentRetryScheduled | paymentReconciledSucceeded | paymentReconciledFailed
  | paymentRefundPending | paymentRefunded | paymentPartiallyRefunded
  | refundCreated | refundProcessing | refundSucceeded | refundFailed | refundRetryScheduled
  deriving DecidableEq, Repr

/-- `X-Test-Scenario` of a payment. -/
inductive Scenario where
  | success | declined | timeout | serverError | delayedSuccess | delayedWebhook | duplicateWebhook
  | lostWebhook
  deriving DecidableEq, Repr

/-- `X-Test-Scenario` of a refund. -/
inductive RefundScenario where
  | success | declined | timeout | serverError
  deriving DecidableEq, Repr

/-- The text of a status in the database. -/
def PaymentStatus.text : PaymentStatus → String
  | created => "CREATED"
  | processing => "PROCESSING"
  | succeeded => "SUCCEEDED"
  | failed => "FAILED"
  | refundPending => "REFUND_PENDING"
  | refunded => "REFUNDED"

/-- The text of a refund's status in the database. -/
def RefundStatus.text : RefundStatus → String
  | created => "CREATED"
  | processing => "PROCESSING"
  | succeeded => "SUCCEEDED"
  | failed => "FAILED"

/-- The outcome of an HTTP request at the client: an exception of httpx, or a response with its
status code, its text and what `response.json()` makes of its body. -/
inductive HttpOutcome where
  | timeoutException
  | networkError
  | otherError (name : String)
  | response (statusCode : ℕ) (text : String) (json : Except Exn Json)

/-- What the environment chooses in a step: the UUID that `uuid4` draws, the order in which a query
returns rows that its `ORDER BY` leaves in any order, the outcome of an HTTP request, the reply of
Redis (`none` for a `RedisError`), and whether the broker takes a message. -/
inductive Pick where
  | nothing
  | newId (id : Uuid)
  | rows (tie : Uuid → ℕ)
  | http (out : HttpOutcome)
  | redis (reply : Option Bool)
  | broker (up : Bool)

/-- The rank of a row among those that `ORDER BY` leaves in any order. -/
def Pick.tie : Pick → Uuid → ℕ
  | rows tie, id => tie id
  | _, _ => 0

/-- What the application calls and does not define. `upper` is `str.upper`, `sha256Hex` the
hexadecimal SHA-256 of a text, `webhookHmac` the hexadecimal HMAC of a body under the webhook
secret, `jsonLoads` is `json.loads` of bytes, `parseUuid` how PostgreSQL reads a UUID, `arrayText`
the text that a list becomes as a parameter, where PostgreSQL can read it as an array. -/
structure Platform where
  upper : String → String
  upper_upper : ∀ s, upper (upper s) = upper s
  sha256Hex : String → String
  webhookHmac : List UInt8 → String
  jsonLoads : List UInt8 → Except Exn Json
  parseUuid : String → Option Uuid
  arrayText : List Json → Option String

/-- A text with a NUL character cannot be stored. -/
def hasNul (s : String) : Bool := s.toList.contains '\x00'

/-- `text[:200]`. -/
def firstTwoHundred (s : String) : String := String.ofList (s.toList.take 200)

namespace Json

mutual

/-- Is there a NUL character anywhere in the value? `jsonb` refuses it. -/
def hasNul : Json → Bool
  | str s => Model.hasNul s
  | arr l => hasNulItems l
  | obj l => hasNulFields l
  | _ => false

/-- `hasNul` of the items of a list. -/
def hasNulItems : List Json → Bool
  | [] => false
  | v :: l => v.hasNul || hasNulItems l

/-- `hasNul` of the keys and values of a dict. -/
def hasNulFields : List (String × Json) → Bool
  | [] => false
  | (k, v) :: l => Model.hasNul k || v.hasNul || hasNulFields l

end

mutual

/-- Is there a NaN or an infinity anywhere in the value? `json.loads` accepts them, `jsonb` refuses
them. -/
def hasNonFinite : Json → Bool
  | float t => ["NaN", "Infinity", "-Infinity"].contains t
  | arr l => hasNonFiniteItems l
  | obj l => hasNonFiniteFields l
  | _ => false

/-- `hasNonFinite` of the items of a list. -/
def hasNonFiniteItems : List Json → Bool
  | [] => false
  | v :: l => v.hasNonFinite || hasNonFiniteItems l

/-- `hasNonFinite` of the values of a dict. -/
def hasNonFiniteFields : List (String × Json) → Bool
  | [] => false
  | (_, v) :: l => v.hasNonFinite || hasNonFiniteFields l

end

/-- Is the value the given text? -/
def isStr : Json → String → Bool
  | str t, s => t == s
  | _, _ => false

/-- `value[key]`. -/
def getItem : Json → String → Except Exn Json
  | obj l, key =>
    match l.lookup key with
    | some v => .ok v
    | none => .error (.keyError key)
  | null, _ => .error (.typeError "'NoneType' object is not subscriptable")
  | bool _, _ => .error (.typeError "'bool' object is not subscriptable")
  | int _, _ => .error (.typeError "'int' object is not subscriptable")
  | float _, _ => .error (.typeError "'float' object is not subscriptable")
  | str _, _ => .error (.typeError "string indices must be integers, not 'str'")
  | arr _, _ => .error (.typeError "list indices must be integers or slices, not str")

/-- `value in keys`, for a set of texts; a list or a dict has no hash. -/
def inSet : Json → List String → Except Exn Bool
  | arr _, _ => .error (.typeError "unhashable type: 'list'")
  | obj _, _ => .error (.typeError "unhashable type: 'dict'")
  | str s, keys => .ok (keys.contains s)
  | _, _ => .ok false

/-- `type(value).__name__`. -/
def typeName : Json → String
  | null => "NoneType"
  | bool _ => "bool"
  | int _ => "int"
  | float _ => "float"
  | str _ => "str"
  | arr _ => "list"
  | obj _ => "dict"

mutual

/-- The items of a list and of the lists in it, without `None`. -/
def scalars : Json → List Json
  | null => []
  | arr l => scalarsItems l
  | v => [v]

/-- `scalars` of the items of a list. -/
def scalarsItems : List Json → List Json
  | [] => []
  | v :: l => v.scalars ++ scalarsItems l

end

/-- The text that psycopg makes of a list. Its items must have one type, and one that it adapts. -/
def dumpList (P : Platform) (l : List Json) : Except Exn String :=
  let types := ((scalarsItems l).map typeName).eraseDups
  if types.contains "dict" then .error (.programmingError "cannot adapt type 'dict'")
  else if 1 < types.length then .error (.dataError "cannot dump lists of mixed types")
  else if hasNulItems l then
    .error (.dataError "PostgreSQL text fields cannot contain NUL (0x00) bytes")
  else
    match P.arrayText l with
    | some t => .ok t
    | none => .error (.dataError "malformed array literal")

/-- A list of texts, or one without items, is sent without a type; PostgreSQL reads its text as a
value of the type that the statement asks for. -/
def untyped (l : List Json) : Bool := (scalarsItems l).all fun v => v.typeName == "str"

/-- The text of a list where a value of the type of a column is asked for. -/
def listParam (P : Platform) (l : List Json) : Except Exn String :=
  match dumpList P l with
  | .ok t => if untyped l then .ok t else .error (.programmingError "operator does not exist")
  | .error e => .error e

/-- The value as a parameter that is compared with or merged into a text column. -/
def textParam (P : Platform) : Json → Except Exn (Option String)
  | null => .ok none
  | str s =>
    if Model.hasNul s then
      .error (.dataError "PostgreSQL text fields cannot contain NUL (0x00) bytes")
    else .ok (some s)
  | arr l => (listParam P l).map some
  | obj _ => .error (.programmingError "cannot adapt type 'dict'")
  | _ => .error (.programmingError "operator does not exist")

/-- The value as a parameter that is assigned to a text column: numbers, booleans and lists are
written out. -/
def assignText (P : Platform) : Json → Except Exn (Option String)
  | int n => .ok (some (toString n))
  | float t => .ok (some t)
  | bool b => .ok (some (if b then "true" else "false"))
  | arr l => (dumpList P l).map some
  | v => v.textParam P

/-- A text that is read as a UUID. -/
def uuidOfText (P : Platform) (s : String) : Except Exn (Option Uuid) :=
  match P.parseUuid s with
  | some u => .ok (some u)
  | none => .error (.dataError "invalid input syntax for type uuid")

/-- The value as a parameter that is compared with a UUID column. -/
def uuidParam (P : Platform) : Json → Except Exn (Option Uuid)
  | null => .ok none
  | str s => uuidOfText P s
  | arr l =>
    match listParam P l with
    | .ok t => uuidOfText P t
    | .error e => .error e
  | obj _ => .error (.programmingError "cannot adapt type 'dict'")
  | _ => .error (.programmingError "operator does not exist")

end Json

end Payflow.Model
