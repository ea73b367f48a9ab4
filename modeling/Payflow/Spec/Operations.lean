import Payflow.Spec.Footprint
import Payflow.Spec.Runs

/-! # Every process keeps to its operations

In every state that is reached, the transaction a process has open, and the action it takes next,
are among the operations of what it was started as (`operates`). -/

namespace Payflow.Spec

open Payflow.Lib Payflow.Model

variable {P : Platform} {w w' : World} {x : Start P}

/-- The operations of a process whose message, if it has one, has been sent. -/
def operationsOf (w : World) : Start P → Option (Call Block Ext → Prop)
  | .task i => (taskOf w i).map taskOperations
  | x => some (operations w x)

theorem operations_of_operationsOf {S : Call Block Ext → Prop} (h : operationsOf w x = some S) :
    S = operations w x := by
  cases x with
  | task i =>
    obtain ⟨t, ht, rfl⟩ := Option.map_eq_some_iff.mp h
    obtain ⟨m, hm, rfl⟩ := Option.map_eq_some_iff.mp ht
    funext o
    simp [operations, hm]
  | _ => exact (Option.some.inj h).symm

theorem operations_world (hx : ∀ i, x ≠ .task i) : operations w' x = operations w x := by
  funext o
  cases x with
  | task i => exact absurd rfl (hx i)
  | _ =>
    cases o with
    | txn b => cases b <;> rfl
    | ext e => cases e <;> rfl

theorem operationsOf_later {S : Call Block Ext → Prop}
    (hw : ∀ i t, taskOf w i = some t → taskOf w' i = some t) (h : operationsOf w x = some S) :
    operationsOf w' x = some S := by
  cases x with
  | task i =>
    obtain ⟨t, ht, rfl⟩ := Option.map_eq_some_iff.mp h
    exact Option.map_eq_some_iff.mpr ⟨t, hw i t ht, rfl⟩
  | _ =>
    obtain rfl := Option.some.inj h
    exact congrArg some (operations_world (by simp))

theorem delivery_of_operations {payload : Json}
    (h : operations w x (.txn (.receiveProviderWebhook payload))) :
    ∃ call, x = .receiveProviderWebhook call := by
  cases x with
  | receiveProviderWebhook call => exact ⟨call, rfl⟩
  | task i =>
    obtain ⟨m, -, hop⟩ := h
    cases ht : m.task <;> simp [ht, taskOperations] at hop
  | _ => exact h.elim

/-- The operations as a discipline. -/
def operating (P : Platform) : Discipline (payflow P) (Call Block Ext → Prop) Unit where
  role := operationsOf
  protocol := Prog.only
  first := ()
  Returns _ _ _ := True
  Raises _ _ _ := True

theorem operating_lawful (P : Platform) : Machine.Lawful (operating P) where
  start := by
    intro w x p h
    have huses := uses_start h
    cases x with
    | task i =>
      have h : start P w (.task i) = some p := h
      simp only [start] at h
      split at h
      · rename_i m hm
        refine ⟨taskOperations m.task, by simp [operating, operationsOf, taskOf, hm], ?_⟩
        have hops : operations w (.task (P := P) i) = taskOperations m.task := by
          funext o
          simp [operations, hm]
        rwa [hops] at huses
      · simp at h
    | _ => exact ⟨_, rfl, huses⟩
  ext hx hS := operationsOf_later (fun _ _ => taskOf_ext hx) hS
  finish := by
    intro y out w x S hS
    refine operationsOf_later (fun i t ht => ?_) hS
    have hsame : taskOf (finish P y out w) i = taskOf w i := taskOf_finish
    exact hsame.trans ht

/-- **A process keeps to its operations.** -/
theorem operates {s : State P} (h : Reachable P s) {i : ℕ} {p : Proc Ans}
    (hp : (Machine.erase (payflow P) s).procs[i]? = some ⟨x, .run p⟩) :
    UsesOnly (operations s.world x) p := by
  obtain ⟨g, hF, -⟩ := Machine.ReachableBy.guided (fulfils P) (operating_lawful P)
    (C := fun _ _ => True) (J := fun _ _ => True) (good_init P) rfl trivial
    (fun _ _ _ _ => trivial) (h.imp fun _ _ _ _ _ => trivial)
  obtain ⟨S, hS, huses⟩ := hF _ _ _ hp
  have hS : S = operations s.world x := operations_of_operationsOf hS
  exact hS ▸ huses

/-- An open transaction is one of the operations of its process. -/
theorem operates_txn {s : State P} (h : Reachable P s) {i : ℕ} {b : Block}
    {t : Txn Write Lock Stmt SRes Exn (BRes b)} {k : Except Exn (BRes b) → Proc Ans}
    (hp : s.procs[i]? = some ⟨x, .inTxn b t k⟩) : operations s.world x (.txn b) :=
  (operates h (Machine.erase_procs hp)).1

end Payflow.Spec
