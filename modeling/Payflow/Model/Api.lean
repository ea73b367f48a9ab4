import Payflow.Model.ProviderClient

/-! # The API

`create_payment` with `create_idempotent_payment` and its Redis lock, `create_refund`, and
`receive_provider_webhook`, for a request that FastAPI has validated and authenticated. -/

namespace Payflow.Model

open Payflow.Lib

/-! ### idempotency.py -/

/-- `\uXXXX`. -/
def unicodeEscape (n : ℕ) : List Char :=
  '\\' :: 'u' :: (List.range 4).map fun i => Nat.digitChar (n / 16 ^ (3 - i) % 16)

/-- How `json.dumps` writes one character inside a text: quotes, backslashes and what is not
printable ASCII are escaped, characters beyond the basic plane as a pair of surrogates. -/
def dumpsChar (c : Char) : List Char :=
  if c = '"' then ['\\', '"']
  else if c = '\\' then ['\\', '\\']
  else if c = '\n' then ['\\', 'n']
  else if c = '\r' then ['\\', 'r']
  else if c = '\t' then ['\\', 't']
  else if c = '\x0c' then ['\\', 'f']
  else if c = '\x08' then ['\\', 'b']
  else if 32 ≤ c.toNat ∧ c.toNat ≤ 126 then [c]
  else if c.toNat < 65536 then unicodeEscape c.toNat
  else
    unicodeEscape (55296 + (c.toNat - 65536) / 1024) ++
      unicodeEscape (56320 + (c.toNat - 65536) % 1024)

/-- `json.dumps` of a text. -/
def dumpsStr (s : String) : List Char := '"' :: (s.toList.flatMap dumpsChar ++ ['"'])

/-- `json.dumps` of the three fields, with sorted keys and the separators `,` and `:`. -/
def canonicalRequest (userId : String) (amountCents : ℤ) (currency : String) : String :=
  String.ofList ("\x7b\"amount_cents\":".toList ++ (toString amountCents).toList ++
    ",\"currency\":".toList ++ dumpsStr currency ++ ",\"user_id\":".toList ++ dumpsStr userId ++
    ['}'])

def generateRequestHash (P : Platform) (userId : String) (amountCents : ℕ) (currency : String) :
    String :=
  P.sha256Hex (canonicalRequest userId amountCents (P.upper currency))

def buildLockKey (merchantId idempotencyKey : String) : String :=
  "payment-lock:" ++ merchantId ++ ":" ++ idempotencyKey

/-- `with acquire_payment_lock(…) as acquired: body`. A `RedisError` counts as acquired, and one on
the release is dropped. -/
def acquirePaymentLock {α : Type} (merchantId idempotencyKey : String) (body : Bool → Proc α) :
    Proc α := do
  let lockKey := buildLockKey merchantId idempotencyKey
  let ownershipToken ← .perform (Call.ext Ext.uuid4)
  let reply ← redisSet lockKey ownershipToken.text
  let acquired := reply.getD true
  Prog.andFinally (body acquired) <|
    if acquired then do
      let _ ← redisRelease lockKey ownershipToken.text
      return ()
    else return ()

/-! ### payment_service.py and payments.py -/

/-- The body of a payment request, as `PaymentRequest` accepts it. -/
structure PaymentRequest (P : Platform) where
  userId : String
  amountCents : ℕ
  rawCurrency : String
  userId_length : 1 ≤ userId.length ∧ userId.length ≤ 100
  amountCents_range : 0 < amountCents ∧ amountCents ≤ 100000000
  rawCurrency_length : rawCurrency.length = 3

/-- The field `currency`, after `normalize_currency`. -/
def PaymentRequest.currency {P : Platform} (r : PaymentRequest P) : String := P.upper r.rawCurrency

/-- A call of `create_payment`. -/
structure CreatePayment (P : Platform) where
  merchantId : String
  idempotencyKey : String
  request : PaymentRequest P
  xTestScenario : Scenario
  idempotencyKey_length : 8 ≤ idempotencyKey.length ∧ idempotencyKey.length ≤ 255

def createIdempotentPayment (P : Platform) (merchantId idempotencyKey userId : String)
    (amountCents : ℕ) (currency : String) : Proc (Payment × Bool) :=
  let requestHash := generateRequestHash P userId amountCents currency
  acquirePaymentLock merchantId idempotencyKey fun lockAcquired => do
    if !lockAcquired then
      match ← txn (.getExistingPayment merchantId idempotencyKey) with
      | none =>
        .raise (.httpException 409
          (.str "Another request with this idempotency key is processing"))
      | some existing =>
        if existing.requestHash ≠ requestHash then .raise keyReused
        else return (existing, true)
    else
      txn (.createIdempotentPayment merchantId idempotencyKey requestHash userId amountCents
        (P.upper currency))

/-- The answer of `create_payment`: the payment and `duplicate`. -/
structure PaymentResponse where
  statusCode : ℕ
  idempotentReplayed : Bool
  payment : Payment
  duplicate : Bool

def createPayment (P : Platform) (call : CreatePayment P) : Proc PaymentResponse := do
  let (payment, duplicate) ← createIdempotentPayment P call.merchantId call.idempotencyKey
    call.request.userId call.request.amountCents call.request.currency
  if !duplicate then
    delay (.processPayment payment.id call.xTestScenario)
    return ⟨201, false, payment, false⟩
  else
    return ⟨200, true, payment, true⟩

/-! ### refunds.py -/

/-- A call of `create_refund`. -/
structure CreateRefund where
  paymentId : Uuid
  merchantId : String
  idempotencyKey : String
  amountCents : ℕ
  xTestScenario : RefundScenario
  idempotencyKey_length : 1 ≤ idempotencyKey.length ∧ idempotencyKey.length ≤ 255
  amountCents_pos : 0 < amountCents
  deriving DecidableEq

/-- The answer of `create_refund`, status 202: the refund and `duplicate`. -/
structure RefundResponse where
  refund : Refund
  duplicate : Bool

def createRefund (call : CreateRefund) : Proc RefundResponse := do
  let (refund, duplicate) ← txn
    (.createRefund call.paymentId call.merchantId call.idempotencyKey call.amountCents)
  if duplicate then
    return ⟨refund, true⟩
  else
    delay (.processRefund refund.id call.xTestScenario)
    return ⟨refund, false⟩

/-! ### webhooks.py -/

/-- `hmac.compare_digest` of two texts: the digest is ASCII, the other text must be. -/
def compareDigest (expected received : String) : Except Exn Bool :=
  if received.toList.all fun c => c.toNat < 128 then .ok (expected == received)
  else .error (.typeError "comparing strings with non-ASCII characters is not supported")

def verifyWebhookSignature (P : Platform) (rawBody : List UInt8) (receivedSignature : String) :
    Except Exn Bool :=
  compareDigest (P.webhookHmac rawBody) receivedSignature

/-- The fields a webhook must have. -/
def requiredFields : List String :=
  ["event_id", "event_type", "payment_id", "provider_payment_id", "status"]

/-- The items of a list have hashes. -/
def hashable : Json → Bool
  | .arr _ | .obj _ => false
  | _ => true

/-- `required_fields.issubset(payload)`: the keys of a dict, the items of a list, the characters of
a text; other values cannot be iterated. -/
def hasRequiredFields : Json → Except Exn Bool
  | .obj fields => .ok (requiredFields.all fun f => (fields.lookup f).isSome)
  | .arr items =>
    if items.all hashable then .ok (requiredFields.all fun f => items.any fun v => v.isStr f)
    else .error (.typeError "unhashable type")
  | .str _ => .ok false
  | _ => .error (.typeError "object is not iterable")

/-- A call of `receive_provider_webhook`. -/
structure ReceiveWebhook where
  rawBody : List UInt8
  xWebhookSignature : String

def receiveProviderWebhook (P : Platform) (call : ReceiveWebhook) : Proc WebhookAnswer := do
  let verified ← .ofExcept (verifyWebhookSignature P call.rawBody call.xWebhookSignature)
  if !verified then .raise (.httpException 401 (.str "Invalid webhook signature"))
  else
    match P.jsonLoads call.rawBody with
    | .error .jsonDecodeError => .raise (.httpException 400 (.str "Invalid JSON payload"))
    | .error e => .raise e
    | .ok payload =>
      let complete ← .ofExcept (hasRequiredFields payload)
      if !complete then
        .raise (.httpException 422 (.str "Webhook payload is missing required fields"))
      else
        let status ← .ofExcept (payload.getItem "status")
        let supported ← .ofExcept (status.inSet ["SUCCEEDED", "FAILED"])
        if !supported then .raise (.httpException 422 (.str "Unsupported payment status"))
        else txn (.receiveProviderWebhook payload)

end Payflow.Model
