import Payflow.Lib.Local
import Payflow.Spec.RefundCreation

/-! # A refund request, statement by statement

The transaction of `create_refund` looks its key up once, without a lock, and never again. What it
answers is decided there: a call that has found a refund (`Found`) answers with it, and a call that
has found none (`Missed`) makes a new refund or fails, whatever has been committed since. -/

namespace Payflow.Spec

open Payflow.Lib Payflow.Model

section call

variable (call : CreateRefund)

/-- What is left of a call when its transaction has ended. -/
def refundCont (r : Except Exn (Refund × Bool)) : Proc Ans :=
  ((Prog.ofExcept r).bind fun (r : Refund × Bool) =>
    if r.2 then .pure ⟨r.1, true⟩
    else (delay (.processRefund r.1.id call.xTestScenario)).bind fun _ =>
      .pure ⟨r.1, false⟩ : Proc RefundResponse).bind fun r => .pure (.refund r)

/-- The status of a call in its transaction. -/
def inRefundTxn (t : Txn Write Lock Stmt SRes Exn (Refund × Bool)) :
    Status Write Lock Stmt Block Ext Exn Ans SRes BRes ERes :=
  .inTxn (refundCreationOf call) t (refundCont call)

/-- The rest of the transaction does not look the key up, and returns no duplicate. -/
def OnlyNew (rest : Tx (Refund × Bool)) : Prop :=
  rest.Follows (Prog.only fun o => ∀ m k, o ≠ .selectRefundByKey m k) (fun _ r => r.2 = false)
    (fun _ _ => True) ()

/-- The call has not looked its key up. -/
inductive Pending : Status Write Lock Stmt Block Ext Exn Ans SRes BRes ERes → Prop
  | before : Pending (.run (.op (.txn (refundCreationOf call)) (refundCont call)))
  | lookup {ls now} : Pending (inRefundTxn call
      ⟨createRefundTxn call.paymentId call.merchantId call.idempotencyKey call.amountCents,
        [], ls, now⟩)

/-- The call has found the refund. -/
inductive Found (row : Refund) : Status Write Lock Stmt Block Ext Exn Ans SRes BRes ERes → Prop
  | inTxn {ls now} : Found row (inRefundTxn call ⟨.pure (row, true), [], ls, now⟩)
  | reply : Found row (.run (.pure (.refund ⟨row, true⟩)))
  | done : Found row (.done (.ok (.refund ⟨row, true⟩)))
  | killed : Found row .killed

/-- The call has found no refund, and has made none. -/
inductive Missed : Status Write Lock Stmt Block Ext Exn Ans SRes BRes ERes → Prop
  | inTxn {t} : OnlyNew t.rest → Missed (inRefundTxn call t)
  | raised {e} : Missed (.run (.raise e))
  | failed {e} : Missed (.done (.error e))
  | killed : Missed .killed

/-- The call has made the refund. -/
inductive RefundMade (row : Refund) : Status Write Lock Stmt Block Ext Exn Ans SRes BRes ERes → Prop
  | committed : RefundMade row (.run (refundCont call (.ok (row, false))))
  | reply : RefundMade row (.run (.pure (.refund ⟨row, false⟩)))
  | done : RefundMade row (.done (.ok (.refund ⟨row, false⟩)))
  | raised {e} : RefundMade row (.run (.raise e))
  | failed {e} : RefundMade row (.done (.error e))

/-- How far a call has come, where `R` holds of the refund that it has found or made. -/
def Stands (R : Refund → Prop) (st : Status Write Lock Stmt Block Ext Exn Ans SRes BRes ERes) :
    Prop :=
  Pending call st ∨ Missed call st ∨ ∃ row, R row ∧ (Found call row st ∨ RefundMade call row st)

end call

/-- The next step is the lookup. -/
def looksUp : Status Write Lock Stmt Block Ext Exn Ans SRes BRes ERes → Bool
  | .inTxn _ ⟨.op (.selectRefundByKey _ _) _, _, _, _⟩ _ => true
  | _ => false

/-- The lookup is still to come. -/
def lookupPending : Status Write Lock Stmt Block Ext Exn Ans SRes BRes ERes → Bool
  | .run (.op (.txn (.createRefund _ _ _ _)) _) => true
  | .inTxn _ ⟨.op (.selectRefundByKey _ _) _, _, _, _⟩ _ => true
  | _ => false

section steps

variable {P : Platform} {call : CreateRefund} {s : State P} {pid : ℕ} {pick : Pick} {x : Start P}
  {st st' : Status Write Lock Stmt Block Ext Exn Ans SRes BRes ERes} {db : Db} {w : World}

theorem start_createRefund {p : Proc Ans}
    (h : (payflow P).start w (.createRefund call) = some p) : Pending call (.run p) := by
  obtain rfl := Option.some.inj h
  exact .before

theorem onlyNew_perform {o : Stmt} {k : SRes o → Tx (Refund × Bool)}
    (ho : ∀ m k, o ≠ .selectRefundByKey m k) (hk : ∀ r, OnlyNew (k r)) : OnlyNew (.op o k) :=
  ⟨ho, hk⟩

/-- **The body of the transaction** is the lookup and what follows from it. -/
theorem createRefundTxn_eq (call : CreateRefund) : ∃ k : Option Refund → Tx (Refund × Bool),
    createRefundTxn call.paymentId call.merchantId call.idempotencyKey call.amountCents =
      .op (.selectRefundByKey call.merchantId call.idempotencyKey) k ∧
    (∀ row, k (some row) = .pure (row, true)) ∧ OnlyNew (k none) := by
  refine ⟨_, rfl, fun row => rfl, ?_⟩
  refine onlyNew_perform (fun m k => nofun) fun row => ?_
  cases row with
  | none => trivial
  | some row =>
    refine Prog.Follows.ite (fun _ => trivial) fun _ => ?_
    refine Prog.Follows.ite (fun _ => trivial) fun _ => ?_
    refine onlyNew_perform (fun m k => nofun) fun total => ?_
    refine Prog.Follows.ite (fun _ => trivial) fun _ => ?_
    refine onlyNew_perform (fun m k => nofun) fun id => ?_
    refine onlyNew_perform (fun m k => nofun) fun r => ?_
    cases r with
    | error e => trivial
    | ok refund =>
      refine onlyNew_perform (fun m k => nofun) fun _ => ?_
      refine onlyNew_perform (fun m k => nofun) fun _ => ?_
      refine onlyNew_perform (fun m k => nofun) fun _ => ?_
      exact onlyNew_perform (fun m k => nofun) fun _ => rfl

theorem lookupPending_of_pending (h : Pending call st) : lookupPending st = true := by
  cases h with
  | before => rfl
  | lookup =>
    obtain ⟨k, hbody, -, -⟩ := createRefundTxn_eq call
    unfold inRefundTxn
    rw [hbody]
    rfl

theorem lookupPending_of_missed (h : Missed call st) : lookupPending st = false := by
  cases h with
  | @inTxn t ht =>
    obtain ⟨rest, ws, ls, now⟩ := t
    cases rest with
    | op o k =>
      cases o with
      | selectRefundByKey m k => exact absurd rfl (ht.1 m _)
      | _ => rfl
    | _ => rfl
  | _ => rfl

/-- A call that has not looked its key up opens its transaction, or looks it up. -/
theorem pending_advance (h : Pending call st)
    (hs : Machine.advance (payflow P) s pid pick x st = some (db, w, st')) :
    db = s.db ∧ ((looksUp st = false ∧ Pending call st') ∨
      (s.db.refundByKey? call.merchantId call.idempotencyKey = none ∧ Missed call st') ∨
      ∃ row, s.db.refundByKey? call.merchantId call.idempotencyKey = some row ∧
        looksUp st = true ∧ Found call row st') := by
  cases h with
  | before =>
    simp only [Machine.advance, Option.some.injEq, Prod.mk.injEq] at hs
    obtain ⟨rfl, -, rfl⟩ := hs
    exact ⟨rfl, Or.inl ⟨rfl, .lookup⟩⟩
  | @lookup ls now =>
    obtain ⟨k, hbody, hfound, hnone⟩ := createRefundTxn_eq call
    unfold inRefundTxn at hs ⊢
    rw [hbody] at hs ⊢
    obtain ⟨r, ws', hx, rfl, rfl⟩ := Machine.advance_stmt hs
    have hr : r = s.db.refundByKey? call.merchantId call.idempotencyKey ∧ ws' = [] := by
      obtain ⟨rfl, rfl⟩ := Prod.mk.inj (Option.some.inj hx)
      exact ⟨rfl, rfl⟩
    obtain ⟨hr, rfl⟩ := hr
    refine ⟨rfl, Or.inr ?_⟩
    cases hkey : s.db.refundByKey? call.merchantId call.idempotencyKey with
    | none =>
      rw [hkey] at hr
      subst hr
      exact Or.inl ⟨rfl, .inTxn hnone⟩
    | some row =>
      rw [hkey] at hr
      subst hr
      refine Or.inr ⟨row, rfl, rfl, ?_⟩
      rw [hfound]
      exact .inTxn

theorem found_advance {row : Refund} (h : Found call row st)
    (hs : Machine.advance (payflow P) s pid pick x st = some (db, w, st')) :
    Found call row st' := by
  cases h with
  | inTxn =>
    simp only [inRefundTxn, Machine.advance, Option.some.injEq, Prod.mk.injEq] at hs
    obtain ⟨-, -, rfl⟩ := hs
    exact .reply
  | reply =>
    simp only [Machine.advance, Option.some.injEq, Prod.mk.injEq] at hs
    obtain ⟨-, -, rfl⟩ := hs
    exact .done
  | done => simp [Machine.advance] at hs
  | killed => simp [Machine.advance] at hs

/-- A call that has found none goes on so, until it commits a new refund. -/
theorem missed_advance (h : Missed call st)
    (hs : Machine.advance (payflow P) s pid pick x st = some (db, w, st')) :
    (db = s.db ∧ Missed call st') ∨
    ∃ row ws ls now, st = inRefundTxn call ⟨.pure (row, false), ws, ls, now⟩ ∧
      db = store.applyAll s.db ws ∧ st' = .run (refundCont call (.ok (row, false))) := by
  cases h with
  | @inTxn t ht =>
    obtain ⟨rest, ws, ls, now⟩ := t
    cases rest with
    | pure r =>
      obtain ⟨row, duplicate⟩ := r
      obtain rfl : duplicate = false := ht
      simp only [inRefundTxn, Machine.advance, Option.some.injEq, Prod.mk.injEq] at hs
      obtain ⟨rfl, -, rfl⟩ := hs
      exact Or.inr ⟨row, ws, ls, now, rfl, rfl, rfl⟩
    | raise e =>
      simp only [inRefundTxn, Machine.advance, Option.some.injEq, Prod.mk.injEq] at hs
      obtain ⟨rfl, -, rfl⟩ := hs
      exact Or.inl ⟨rfl, .raised⟩
    | op o k =>
      obtain ⟨r, ws', hx, rfl, rfl⟩ := Machine.advance_stmt hs
      exact Or.inl ⟨rfl, .inTxn (ht.2 r)⟩
  | raised =>
    simp only [Machine.advance, Option.some.injEq, Prod.mk.injEq] at hs
    obtain ⟨rfl, -, rfl⟩ := hs
    exact Or.inl ⟨rfl, .failed⟩
  | failed => simp [Machine.advance] at hs
  | killed => simp [Machine.advance] at hs

/-- A call that has made a refund answers with it, or raises the error of the broker. -/
theorem refundMade_advance {row : Refund} (h : RefundMade call row st)
    (hs : Machine.advance (payflow P) s pid pick x st = some (db, w, st')) :
    RefundMade call row st' := by
  cases h with
  | committed =>
    obtain ⟨sent, -, -, rfl⟩ := Machine.advance_ext
      (e := Ext.delay (.processRefund row.id call.xTestScenario)) hs
    cases sent with
    | true => exact .reply
    | false => exact .raised
  | reply =>
    simp only [Machine.advance, Option.some.injEq, Prod.mk.injEq] at hs
    obtain ⟨-, -, rfl⟩ := hs
    exact .done
  | raised =>
    simp only [Machine.advance, Option.some.injEq, Prod.mk.injEq] at hs
    obtain ⟨-, -, rfl⟩ := hs
    exact .failed
  | done => simp [Machine.advance] at hs
  | failed => simp [Machine.advance] at hs

theorem Stands.answer {R : Refund → Prop} {a : RefundResponse}
    (h : Stands call R (.done (.ok (.refund a)))) : R a.refund := by
  rcases h with hpending | hmissed | ⟨row, hR, hst | hst⟩
  · cases hpending
  · cases hmissed
  · cases hst
    exact hR
  · cases hst
    exact hR

theorem pending_of_looksUp {R : Refund → Prop} (h : Stands call R st) (hl : looksUp st = true) :
    Pending call st := by
  rcases h with hpending | hmissed | ⟨row, -, hfound | hmade⟩
  · exact hpending
  · have hpassed := lookupPending_of_missed hmissed
    cases st with
    | inTxn b t k =>
      obtain ⟨rest, ws, ls, now⟩ := t
      cases rest with
      | op o k =>
        cases o with
        | selectRefundByKey m k => simp [lookupPending] at hpassed
        | _ => cases hl
      | _ => cases hl
    | _ => cases hl
  · cases hfound <;> cases hl
  · cases hmade <;> cases hl

end steps

end Payflow.Spec
