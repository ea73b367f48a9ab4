import Payflow.Spec.Creation

/-! # How a request creates a payment

A call of `create_payment` gets a payment from the database, a new one that it has `won` or the one
that holds its key and its hash; it sends the task of a new one, and answers. What Redis does makes
no difference to this. No other process creates a payment or sends such a task for the first
time. -/

namespace Payflow.Spec

open Payflow.Lib Payflow.Model

/-- The hash of a call. -/
def callHash {P : Platform} (call : CreatePayment P) : String :=
  generateRequestHash P call.request.userId call.request.amountCents call.request.currency

/-- The transaction that creates the payment of a call. -/
def creation {P : Platform} (call : CreatePayment P) : Block :=
  .createIdempotentPayment call.merchantId call.idempotencyKey (callHash call) call.request.userId
    call.request.amountCents (P.upper call.request.currency)

/-- The protocol of a call. -/
def callProtocol {P : Platform} (call : CreatePayment P) :
    Protocol (Call Block Ext) (Call.Res BRes ERes Exn) (Turn Payment) where
  allow
    | .waiting, .txn b =>
      b = .getExistingPayment call.merchantId call.idempotencyKey ∨ b = creation call
    | .waiting, .ext .uuid4 | .waiting, .ext (.redisSet _ _) => True
    | .won row, .ext (.delay task) => task = .processPayment row.id call.xTestScenario
    | .sent _, _ => False
    | _, .ext (.redisRelease _ _) => True
    | _, _ => False
  next
    | .waiting, .txn (.createIdempotentPayment _ _ _ _ _ _), .ok (row, duplicate) =>
      if duplicate then .same row else .won row
    | .waiting, .txn (.getExistingPayment _ _), .ok (some row) =>
      if row.requestHash = callHash call then .same row else .waiting
    | .won row, .ext (.delay _), true => .sent row
    | turn, _, _ => turn

/-- What a call may answer. -/
def CallReturns (turn : Turn Payment) : Ans → Prop
  | .payment r => (turn = .sent r.payment ∧ r.duplicate = false) ∨
    (turn = .same r.payment ∧ r.duplicate = true)
  | _ => False

/-- The row holds the request of the call. -/
structure Stored {P : Platform} (call : CreatePayment P) (row : Payment) : Prop where
  merchantId : row.merchantId = call.merchantId
  idempotencyKey : row.idempotencyKey = call.idempotencyKey
  requestHash : row.requestHash = callHash call
  userId : row.userId = call.request.userId
  amountCents : row.amountCents = call.request.amountCents
  currency : varchar 3 (P.upper call.request.currency) = .ok row.currency

/-- The row has the key and the hash of the call. -/
def Matches {P : Platform} (call : CreatePayment P) (row : Payment) : Prop :=
  row.merchantId = call.merchantId ∧ row.idempotencyKey = call.idempotencyKey ∧
    row.requestHash = callHash call

/-- The task works on the payment. -/
def ofPayment (p : Uuid) : Task → Bool
  | .processPayment p' _ => p' = p
  | .processRefund _ _ => false

/-- The transaction makes a payment. -/
def MakesPayment : Block → Prop
  | .createIdempotentPayment _ _ _ _ _ _ => True
  | _ => False

/-- The creation of payments. -/
def paymentCreation (P : Platform) : Creation P where
  Request := CreatePayment P
  Row := Payment
  request?
    | .createPayment call => some call
    | _ => none
  id := Payment.id
  find := Db.payment?
  Later := PaymentLe
  Stored := Stored
  Matches := Matches
  Makes := MakesPayment
  ofTask := ofPayment
  protocol := callProtocol
  Returns _ := CallReturns

section programs

variable {P : Platform} (call : CreatePayment P)

/-- A call has got a payment. -/
def Got (turn : Turn Payment) (r : Payment × Bool) : Prop :=
  turn = if r.2 then .same r.1 else .won r.1

theorem follows_redisRelease {key token : String} {R : Turn Payment → Exn → Prop}
    {turn : Turn Payment}
    (hturn : ∀ p, turn ≠ .sent p) :
    (redisRelease key token).Follows (callProtocol call) (fun turn' _ => turn' = turn) R turn := by
  cases turn with
  | sent p => exact absurd rfl (hturn p)
  | _ => exact ⟨trivial, fun _ => rfl⟩

/-- **The lock** is asked for and given back, whatever Redis answers. -/
theorem follows_acquirePaymentLock {m k : String} {body : Bool → Proc (Payment × Bool)}
    (hbody : ∀ acquired, (body acquired).Follows (callProtocol call) Got
      (fun turn _ => turn = .waiting) .waiting) :
    (acquirePaymentLock m k body).Follows (callProtocol call) Got (fun turn _ => turn = .waiting)
      .waiting := by
  refine ⟨trivial, fun token => ⟨trivial, fun reply => ?_⟩⟩
  refine Prog.Follows.andFinally (hbody _) (fun turn r hr => ?_) fun turn e he => ?_
  · have hturn : ∀ p, turn ≠ .sent p := by
      rintro p rfl
      unfold Got at hr
      split_ifs at hr
    refine Prog.Follows.ite (fun _ => ?_) fun _ => hr
    exact (follows_redisRelease call hturn).bind fun turn' _ h => h ▸ hr
  · have hturn : ∀ p, turn ≠ .sent p := by
      rintro p rfl
      simp at he
    refine Prog.Follows.ite (fun _ => ?_) fun _ => he
    exact (follows_redisRelease call hturn).bind fun turn' _ h => h ▸ he

theorem follows_createIdempotentPayment :
    (createIdempotentPayment P call.merchantId call.idempotencyKey call.request.userId
      call.request.amountCents call.request.currency).Follows (callProtocol call) Got
      (fun turn _ => turn = .waiting) .waiting := by
  unfold createIdempotentPayment
  refine follows_acquirePaymentLock call fun acquired => ?_
  refine Prog.Follows.ite (fun _ => ?_) fun _ => ?_
  · refine ⟨Or.inl rfl, fun r => ?_⟩
    cases r with
    | error e => exact rfl
    | ok existing =>
      cases existing with
      | none => exact rfl
      | some row =>
        show Prog.Follows _ _ _ (if row.requestHash = callHash call then _ else _)
          (if row.requestHash ≠ callHash call then _ else _)
        by_cases hhash : row.requestHash = callHash call
        · rw [if_pos hhash, if_neg (by simpa using hhash)]
          exact rfl
        · rw [if_neg hhash, if_pos hhash]
          exact rfl
  · refine ⟨Or.inr rfl, fun r => ?_⟩
    cases r with
    | error e => exact rfl
    | ok r => exact rfl

theorem follows_createPayment :
    (createPayment P call).Follows (callProtocol call) (fun turn r => CallReturns turn (.payment r))
      (fun _ _ => True) .waiting := by
  have hpay := (follows_createIdempotentPayment call).mono (fun _ _ h => h) fun _ _ _ => trivial
  refine Prog.Follows.bind hpay fun turn r hr => ?_
  obtain ⟨payment, duplicate⟩ := r
  cases duplicate with
  | true => exact Or.inr ⟨hr, rfl⟩
  | false =>
    have hturn : turn = .won payment := hr
    subst hturn
    refine ⟨rfl, fun sent => ?_⟩
    cases sent with
    | false => trivial
    | true => exact Or.inl ⟨rfl, rfl⟩

end programs

section lawful

variable {P : Platform} {call : CreatePayment P}

theorem Stored.later {row row' : Payment} (h : Stored call row) (hle : PaymentLe row row') :
    Stored call row' := by
  obtain ⟨cols, rfl⟩ := hle
  exact ⟨h.merchantId, h.idempotencyKey, h.requestHash, h.userId, h.amountCents, h.currency⟩

theorem Matches.later {row row' : Payment} (h : Matches call row) (hle : PaymentLe row row') :
    Matches call row' := by
  obtain ⟨cols, rfl⟩ := hle
  exact h

theorem payment_before {b : Block} {now : ℕ} {D : Db} {ws : List Write} {r : BRes b}
    (hreq : Requires b D) (h : Does P b now D ws r) (hb : ¬ MakesPayment b) {p : Uuid}
    {row' : Payment}
    (hp' : (store.applyAll D ws).payment? p = some row') : ∃ row, D.payment? p = some row := by
  have hstep := payment_step hreq h p
  rw [hp'] at hstep
  generalize D.payment? p = before at hstep
  cases hstep with
  | new hb' =>
    subst hb'
    exact absurd trivial hb
  | keep => exact ⟨_, rfl⟩
  | move => exact ⟨_, rfl⟩

/-- A row that was once found under the key of a call, with its hash, is there. -/
theorem matches_of_once {D : Db} {row : Payment}
    (h : Once D fun D₀ => D₀.paymentByKey? call.merchantId call.idempotencyKey = some row)
    (hhash : row.requestHash = callHash call) :
    Matches call row ∧ ∃ row', D.payment? row.id = some row' ∧ PaymentLe row row' := by
  obtain ⟨D₀, hi₀, hle, hkey⟩ := h
  obtain ⟨hmem, hpair⟩ := find?_key hkey
  have hp : D₀.payment? row.id = some row := find?_key_of_mem hi₀.payment_ids hmem
  obtain ⟨hm, hk⟩ := Prod.mk.inj hpair
  exact ⟨⟨hm, hk, hhash⟩, hle.payment hp⟩

/-- A commit of a call makes its payment or gets the one with its key and its hash. -/
theorem payment_commit {turn : Turn Payment} {b : Block} {now : ℕ} {D : Db}
    {ws : List Write} {r : BRes b}
    (hallow : (callProtocol call).allow turn (.txn b)) (hdoes : Does P b now D ws r) :
    turn = .waiting ∧
      ((∃ row, (callProtocol call).next turn (.txn b) (.ok r : Except Exn (BRes b)) = .won row ∧
        D.payment? row.id = none ∧ Stored call row ∧
        ∀ p, (store.applyAll D ws).payment? p = if p = row.id then some row else D.payment? p) ∨
      (ws = [] ∧ ((callProtocol call).next turn (.txn b) (.ok r : Except Exn (BRes b)) = .waiting ∨
        ∃ row, (callProtocol call).next turn (.txn b) (.ok r : Except Exn (BRes b)) = .same row ∧
          Matches call row ∧ ∃ row', D.payment? row.id = some row' ∧ PaymentLe row row'))) := by
  have hwaiting : turn = .waiting := by
    cases turn <;> first | rfl | exact hallow.elim
  subst hwaiting
  refine ⟨rfl, ?_⟩
  rcases hallow with rfl | rfl
  · -- the lookup after a refused lock
    obtain ⟨rfl, honce⟩ := hdoes
    refine Or.inr ⟨rfl, ?_⟩
    cases r with
    | none => exact Or.inl rfl
    | some row =>
      by_cases hhash : row.requestHash = callHash call
      · exact Or.inr ⟨row, if_pos hhash, matches_of_once honce hhash⟩
      · exact Or.inl (if_neg hhash)
  · rcases hdoes with ⟨id, event, c, -, hid, -, hc, rfl, rfl⟩ | ⟨row, honce, hhash, rfl, rfl⟩
    · -- the insert is won
      set row := newPayment now id call.merchantId call.idempotencyKey (callHash call)
        call.request.userId call.request.amountCents c
      have hnew : D.payment? row.id = none := hid
      refine Or.inl ⟨row, rfl, hid, ⟨rfl, rfl, rfl, rfl, rfl, hc⟩, fun p => ?_⟩
      show (D.apply (.insertPayment _)).payment? p = _
      split_ifs with hpid
      · rw [hpid]
        exact payment?_insert_self hnew
      · exact payment?_insert (Ne.symm hpid)
    · -- the insert is lost
      exact Or.inr ⟨rfl, Or.inr ⟨row, rfl, matches_of_once honce hhash⟩⟩

theorem payment_ext {turn : Turn Payment} {e : Ext}
    (hallow : (callProtocol call).allow turn (.ext e)) :
    ((∀ task n, ¬ Sends e task n) ∧ ∀ r, (callProtocol call).next turn (.ext e) r = turn) ∨
    ∃ row task, turn = .won row ∧ e = .delay task ∧ (∀ p, ofPayment p task = true → p = row.id) ∧
      ∀ r : Bool, (callProtocol call).next (.won row) (.ext (.delay task)) r =
        if r then .sent row else .won row := by
  cases e with
  | delay task =>
    cases turn with
    | won row =>
      obtain rfl := hallow
      refine Or.inr ⟨row, _, rfl, rfl, fun p hp => ?_, fun r => ?_⟩
      · exact (of_decide_eq_true hp).symm
      · cases r <;> rfl
    | _ => exact hallow.elim
  | uuid4 | redisSet key token | redisRelease key token =>
    refine Or.inl ⟨fun _ _ h => h.elim, fun r => ?_⟩
    cases turn <;> rfl
  | _ => cases turn <;> exact hallow.elim

end lawful

theorem paymentCreation_lawful (P : Platform) : (paymentCreation P).Lawful where
  refl := .refl
  trans h h' := PaymentLe.trans _ _ _ h h'
  later hle _ _ hp := hle.payment hp
  stored hle h := h.later hle
  back hreq hdoes hb _ _ hp' := payment_before hreq hdoes hb hp'
  commit := payment_commit
  error := by
    intro call turn b e
    cases turn <;> cases b <;> rfl
  ext := payment_ext

theorem paymentCreation_other {P : Platform} {w : World} {x : Start P} {o : Call Block Ext}
    (h : operations w x o) (hx : ∀ call, x ≠ .createPayment call) :
    (paymentCreation P).Other o := by
  constructor
  · rintro b rfl hmakes
    cases b with
    | createIdempotentPayment m k hash u a c =>
      cases x with
      | createPayment call => exact hx call rfl
      | task i =>
        obtain ⟨m, -, hop⟩ := h
        cases ht : m.task <;> simp [ht, taskOperations] at hop
      | _ => exact h
    | _ => exact hmakes
  · rintro e task rfl hsends p
    rcases request_of_sends h hsends with ⟨call, p', scenario, rfl, -⟩ | ⟨-, q, scenario, -, rfl⟩
    · exact absurd rfl (hx call)
    · rfl

/-- **The processes keep to the protocols of the creation.** -/
theorem paymentCreation_discipline (P : Platform) :
    Machine.Lawful (paymentCreation P).discipline where
  start := by
    intro w x p h
    refine ⟨_, rfl, ?_⟩
    have huses := uses_start h
    cases x with
    | createPayment call =>
      obtain rfl := Option.some.inj h
      exact Prog.Follows.bind (follows_createPayment call) fun _ _ hr => hr
    | _ =>
      refine huses.follows (fun o ho => ⟨?_, fun _ => rfl⟩) (fun _ => trivial) fun _ => trivial
      exact paymentCreation_other ho fun call hcall => by simp at hcall
  ext _ hrole := hrole
  finish _ _ _ _ _ hrole := hrole

end Payflow.Spec
