import Mathlib.Data.Nat.Notation
import Mathlib.Logic.Basic
import Mathlib.Tactic.SplitIfs

/-! # Programs with effects and exceptions

A program is a tree: it returns, raises, or performs one operation and goes on with its result. The
operations are given by a type `Op` and the type `Res o` of what `o` answers; what they do is left
to whoever runs the program. Loops over lists are recursive functions that build such trees. -/

namespace Payflow.Lib

/-- Programs over the operations `Op` that raise `ε` and return `α`. -/
inductive Prog (Op : Type) (Res : Op → Type) (ε α : Type) where
  | pure (a : α)
  | raise (e : ε)
  | op (o : Op) (k : Res o → Prog Op Res ε α)

namespace Prog

variable {Op : Type} {Res : Op → Type} {ε α β γ : Type}

/-- Run the first program, then the second with its result. -/
def bind : Prog Op Res ε α → (α → Prog Op Res ε β) → Prog Op Res ε β
  | pure a, f => f a
  | raise e, _ => raise e
  | op o k, f => op o fun r => (k r).bind f

/-- `try p except e => h e`. -/
def handle : Prog Op Res ε α → (ε → Prog Op Res ε α) → Prog Op Res ε α
  | pure a, _ => pure a
  | raise e, h => h e
  | op o k, h => op o fun r => (k r).handle h

instance : Monad (Prog Op Res ε) where
  pure := .pure
  bind := .bind

/-- The program that performs one operation and returns its result. -/
def perform (o : Op) : Prog Op Res ε (Res o) := op o pure

/-- A computed result, or the exception that was raised instead. -/
def ofExcept : Except ε α → Prog Op Res ε α
  | .ok a => pure a
  | .error e => raise e

/-- `try p finally q`: `q` runs after `p` has returned and after `p` has raised. -/
def andFinally (p : Prog Op Res ε α) (q : Prog Op Res ε Unit) : Prog Op Res ε α :=
  ((p.bind fun a => pure (Except.ok a)).handle fun e => pure (Except.error e)).bind fun r =>
    q.bind fun _ => ofExcept r

@[simp] theorem pure_bind' (a : α) (f : α → Prog Op Res ε β) : (pure a).bind f = f a := rfl

@[simp] theorem raise_bind (e : ε) (f : α → Prog Op Res ε β) :
    (raise e : Prog Op Res ε α).bind f = raise e := rfl

@[simp] theorem op_bind (o : Op) (k : Res o → Prog Op Res ε α) (f : α → Prog Op Res ε β) :
    (op o k).bind f = op o fun r => (k r).bind f := rfl

@[simp] theorem bind_eq (p : Prog Op Res ε α) (f : α → Prog Op Res ε β) : p >>= f = p.bind f := rfl

@[simp] theorem pure_eq (a : α) : (Pure.pure a : Prog Op Res ε α) = pure a := rfl

@[simp] theorem perform_bind (o : Op) (f : Res o → Prog Op Res ε β) :
    (perform o).bind f = op o f := rfl

@[simp] theorem ofExcept_ok (a : α) : (ofExcept (.ok a) : Prog Op Res ε α) = pure a := rfl

@[simp] theorem ofExcept_error (e : ε) : (ofExcept (.error e) : Prog Op Res ε α) = raise e := rfl

@[simp] theorem handle_pure (a : α) (h : ε → Prog Op Res ε α) : (pure a).handle h = pure a := rfl

@[simp] theorem handle_raise (e : ε) (h : ε → Prog Op Res ε α) : (raise e).handle h = h e := rfl

@[simp] theorem handle_op (o : Op) (k : Res o → Prog Op Res ε α) (h : ε → Prog Op Res ε α) :
    (op o k).handle h = op o fun r => (k r).handle h := rfl

end Prog

end Payflow.Lib
