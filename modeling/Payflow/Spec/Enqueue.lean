import Payflow.Spec.Footprint

/-! # Between the commit of a row and the enqueuing of its task

A call of `create_payment` or of `create_refund` that has made a row owes its task: all it does
before `.delay` is to give its Redis lock back, and it neither answers nor raises while it owes one.
`owed` says of a process whether it is in between, and `owed_of_follows` that the protocol of the
owing calls tells the same. -/

namespace Payflow.Spec

open Payflow.Lib Payflow.Model

/-- A row that a call makes. -/
inductive Made where
  | payment (id : Uuid)
  | refund (id : Uuid)
  deriving DecidableEq

/-- The task works on the row. -/
def worksOn : Made → Task → Bool
  | .payment p, .processPayment p' _ => p' = p
  | .refund q, .processRefund q' _ => q' = q
  | _, _ => false

/-- The row is in the database. -/
def Made.stored (D : Db) : Made → Bool
  | .payment p => (D.payment? p).isSome
  | .refund q => (D.refund? q).isSome

/-- The task that a program enqueues before it does anything else than to give a Redis lock back. -/
def nextDelay : Proc Ans → Option Task
  | .op (.ext (.delay task)) _ => some task
  | .op (.ext (.redisRelease _ _)) k => nextDelay (k (none : Option Bool))
  | _ => none

/-- The task that a process owes: it stands between the commit of a row and the enqueuing. -/
def owed : Status Write Lock Stmt Block Ext Exn Ans SRes BRes ERes → Option Task
  | .run p => nextDelay p
  | _ => none

/-- The protocol of what is owed. -/
def dueProtocol : Protocol (Call Block Ext) (Call.Res BRes ERes Exn) (Option Made) where
  allow
    | none, .ext (.delay _) => False
    | none, _ => True
    | some made, .ext (.delay task) => worksOn made task = true
    | some _, .ext (.redisRelease _ _) => True
    | some _, _ => False
  next
    | none, .txn (.createIdempotentPayment _ _ _ _ _ _), .ok (row, false) => some (.payment row.id)
    | none, .txn (.createRefund _ _ _ _), .ok (row, false) => some (.refund row.id)
    | some _, .ext (.delay _), _ => none
    | due, _, _ => due

/-- No process ends owing a task. -/
def dueDiscipline (P : Platform) : Discipline (payflow P) Unit (Option Made) where
  role _ _ := some ()
  protocol _ := dueProtocol
  first := none
  Returns _ due _ := due = none
  Raises _ due _ := due = none

section programs

variable {α : Type}

/-- From where `due` is owed on, the program keeps to the protocol, and ends owing nothing. -/
abbrev Pays (due : Option Made) {α : Type} (p : Proc α) : Prop :=
  p.Follows dueProtocol (fun due _ => due = none) (fun due _ => due = none) due

/-- What is done when nothing is owed, and makes nothing owed. -/
def Clear (o : Call Block Ext) : Prop :=
  dueProtocol.allow none o ∧ ∀ r, dueProtocol.next none o r = none

theorem pays_of_uses {S : Call Block Ext → Prop} {p : Proc α} (h : UsesOnly S p)
    (hS : ∀ o, S o → Clear o) : Pays none p :=
  h.follows hS (fun _ => rfl) fun _ => rfl

/-- What is owed after a call has got a row. -/
def owes (made : Uuid → Made) (id : Uuid) (duplicate : Bool) : Option Made :=
  if duplicate then none else some (made id)

theorem follows_release {key token : String} {due : Option Made} :
    (redisRelease key token).Follows dueProtocol (fun due' _ => due' = due)
    (fun _ _ => False) due := by
  cases due <;> exact ⟨trivial, fun _ => rfl⟩

/-- The lock is asked for and given back, whatever is owed in between. -/
theorem follows_lock {m k : String} {body : Bool → Proc (Payment × Bool)}
    (hbody : ∀ acquired, (body acquired).Follows dueProtocol
      (fun due r => due = owes .payment r.1.id r.2) (fun due _ => due = none) none) :
    (acquirePaymentLock m k body).Follows dueProtocol (fun due r => due = owes .payment r.1.id r.2)
      (fun due _ => due = none) none := by
  refine ⟨trivial, fun token => ⟨trivial, fun reply => ?_⟩⟩
  have hrelease : ∀ {due}, (redisRelease (buildLockKey m k) token.text).Follows dueProtocol
      (fun due' _ => due' = due) (fun due _ => due = none) due :=
    follows_release.mono (fun _ _ h => h) fun _ _ h => h.elim
  refine Prog.Follows.andFinally (hbody _) (fun due r hr => ?_) fun due e he => ?_
  · refine Prog.Follows.ite (fun _ => ?_) fun _ => hr
    exact hrelease.bind fun due' _ h => h ▸ hr
  · refine Prog.Follows.ite (fun _ => ?_) fun _ => he
    exact hrelease.bind fun due' _ h => h ▸ he

theorem pays_createPayment {P : Platform} (call : CreatePayment P) :
    Pays none (createPayment P call) := by
  have hpay : (createIdempotentPayment P call.merchantId call.idempotencyKey call.request.userId
      call.request.amountCents call.request.currency).Follows dueProtocol
      (fun due r => due = owes .payment r.1.id r.2) (fun due _ => due = none) none := by
    unfold createIdempotentPayment
    refine follows_lock fun acquired => ?_
    refine Prog.Follows.ite (fun _ => ?_) fun _ => ?_
    · refine ⟨trivial, fun r => ?_⟩
      cases r with
      | error e => exact rfl
      | ok existing =>
        cases existing with
        | none => exact rfl
        | some row => exact Prog.Follows.ite (fun _ => rfl) fun _ => rfl
    · refine ⟨trivial, fun r => ?_⟩
      cases r with
      | error e => exact rfl
      | ok r =>
        obtain ⟨row, duplicate⟩ := r
        cases duplicate <;> exact rfl
  refine Prog.Follows.bind hpay fun due r hr => ?_
  obtain ⟨row, duplicate⟩ := r
  cases duplicate with
  | true => exact hr
  | false =>
    obtain rfl : due = some (.payment row.id) := hr
    refine ⟨decide_eq_true rfl, fun sent => ?_⟩
    cases sent <;> exact rfl

theorem pays_createRefund (call : CreateRefund) : Pays none (createRefund call) := by
  refine ⟨trivial, fun r => ?_⟩
  cases r with
  | error e => exact rfl
  | ok r =>
    obtain ⟨row, duplicate⟩ := r
    cases duplicate with
    | true => exact rfl
    | false =>
      refine ⟨decide_eq_true rfl, fun sent => ?_⟩
      cases sent <;> exact rfl

theorem clear_of_operations {P : Platform} {w : World} {x : Start P} {o : Call Block Ext}
    (h : operations w x o) (hp : ∀ call, x ≠ .createPayment call)
    (hr : ∀ call, x ≠ .createRefund call) : Clear o := by
  have hother : ∀ o, (∀ task, o ≠ .ext (.delay task)) →
      (∀ m k h u a c, o ≠ .txn (.createIdempotentPayment m k h u a c)) →
      (∀ p m k a, o ≠ .txn (.createRefund p m k a)) → Clear o := by
    intro o hdelay hpay href
    cases o with
    | txn b =>
      refine ⟨trivial, fun r => ?_⟩
      cases b with
      | createIdempotentPayment m k h u a c => exact absurd rfl (hpay m k h u a c)
      | createRefund p m k a => exact absurd rfl (href p m k a)
      | _ => rfl
    | ext e =>
      cases e with
      | delay task => exact absurd rfl (hdelay task)
      | _ => exact ⟨trivial, fun r => rfl⟩
  cases x with
  | createPayment call => exact absurd rfl (hp call)
  | createRefund call => exact absurd rfl (hr call)
  | task i =>
    obtain ⟨m, -, hop⟩ := h
    refine hother o ?_ ?_ ?_
    · rintro task rfl
      cases ht : m.task <;> simp [ht, taskOperations] at hop
    · rintro m₁ k h u a c rfl
      cases ht : m.task <;> simp [ht, taskOperations] at hop
    · rintro p m₁ k a rfl
      cases ht : m.task <;> simp [ht, taskOperations] at hop
  | receiveProviderWebhook call | reconcilePayments =>
    refine hother o ?_ ?_ ?_
    · rintro task rfl
      exact h
    · rintro m₁ k h₁ u a c rfl
      exact h
    · rintro p m₁ k a rfl
      exact h

/-- **What the protocol says is owed** is the task that the program enqueues next. -/
theorem owed_of_follows {made : Made} {R : Option Made → Ans → Prop} {E : Option Made → Exn → Prop}
    (hR : ∀ a, ¬ R (some made) a) (hE : ∀ e, ¬ E (some made) e) {p : Proc Ans}
    (h : p.Follows dueProtocol R E (some made)) :
    ∃ task, nextDelay p = some task ∧ worksOn made task = true := by
  induction p with
  | pure a => exact absurd h (hR a)
  | raise e => exact absurd h (hE e)
  | op o k ih =>
    cases o with
    | txn b => exact h.1.elim
    | ext e =>
      cases e with
      | delay task => exact ⟨task, rfl, h.1⟩
      | redisRelease key token => exact ih (none : Option Bool) (h.2 (none : Option Bool))
      | _ => exact h.1.elim

end programs

/-- **The processes keep to the protocol** of what is owed. -/
theorem due_lawful (P : Platform) : Machine.Lawful (dueDiscipline P) where
  start := by
    intro w x p h
    refine ⟨(), rfl, ?_⟩
    have huses := uses_start h
    cases x with
    | createPayment call =>
      obtain rfl := Option.some.inj h
      exact Prog.Follows.bind (pays_createPayment call) fun _ _ hdue => hdue
    | createRefund call =>
      obtain rfl := Option.some.inj h
      exact Prog.Follows.bind (pays_createRefund call) fun _ _ hdue => hdue
    | _ => exact pays_of_uses huses fun o ho => clear_of_operations ho (by simp) (by simp)
  ext _ hrole := hrole
  finish _ _ _ _ _ hrole := hrole

end Payflow.Spec
