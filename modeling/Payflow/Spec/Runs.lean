import Payflow.Lib.Local
import Payflow.Spec.Fulfils

/-! # Runs

Runs of the system whose commits meet a condition, and the rule for invariants of the database over
them (`db_invariant`). -/

namespace Payflow.Spec

open Payflow.Lib Payflow.Model

/-- A condition on the commits: the database before one and the transaction. -/
def OnCommits {P : Platform} (C : Db → Block → Prop) (s : State P)
    (ev : Event Block Ext (Start P)) : Prop :=
  ∀ pid b, ev = .commit pid b → C s.db b

/-- A condition on the commits that is computed. -/
def commitCheck {P : Platform} (c : Db → Block → Bool) (s : State P)
    (a : Action (Start P) Pick) : Bool :=
  match Machine.event (payflow P) s a with
  | some (.commit _ b) => c s.db b
  | _ => true

theorem onCommits_of_check {P : Platform} {C : Db → Block → Prop} {c : Db → Block → Bool}
    (hc : ∀ D b, c D b = true → C D b) {s : State P} {a : Action (Start P) Pick}
    (h : commitCheck c s a = true) : Machine.OnEvents (payflow P) (OnCommits C) s a := by
  rintro ev hev pid b rfl
  unfold commitCheck at h
  rw [hev] at h
  exact hc _ _ h

/-- The states that the system reaches while every transaction that commits meets the condition on
the database it is committed to. -/
abbrev ReachableWhen (P : Platform) (C : Db → Block → Prop) (s : State P) : Prop :=
  Machine.ReachableBy (payflow P) (Machine.OnEvents (payflow P) (OnCommits C)) (init P) s

theorem reachableWhen_true {P : Platform} {s : State P} (h : Reachable P s) :
    ReachableWhen P (fun _ _ => True) s :=
  h.imp fun _ _ _ _ _ _ _ _ => trivial

/-- The machine's own invariant holds in every state that is reached. -/
theorem good_of_reachable {P : Platform} {s : State P} (h : Reachable P s) :
    Machine.Good (payflow P) rely (contract P) s :=
  h.good (fulfils P) (good_init P)

/-- **Invariants of the database.** What holds at first and is kept by every commit that meets the
condition holds in every state that is reached so. -/
theorem db_invariant_from {P : Platform} {C : Db → Block → Prop} {I : Db → Prop} {s₀ s : State P}
    (hg : Machine.Good (payflow P) rely (contract P) s₀) (h₀ : I s₀.db)
    (hstep : ∀ {b now D ws} {r : BRes b}, Inv D → Requires b D → Does P b now D ws r → C D b → I D →
      I (store.applyAll D ws))
    (h : Machine.ReachableBy (payflow P) (Machine.OnEvents (payflow P) (OnCommits C)) s₀ s) :
    I s.db := by
  have hI := Machine.ReachableBy.invariant (fulfils P) (P := fun s => I s.db) hg h₀
    (fun {s ev s'} hI hC hs => ?_) h
  · exact hI
  cases hs with
  | commit hp hnow hinv hpre hpost => exact hstep hinv hpre hpost (hC _ _ rfl) hI
  | _ => exact hI

theorem db_invariant {P : Platform} {C : Db → Block → Prop} {I : Db → Prop} (h₀ : I Db.empty)
    (hstep : ∀ {b now D ws} {r : BRes b}, Inv D → Requires b D → Does P b now D ws r → C D b → I D →
      I (store.applyAll D ws)) {s : State P} (h : ReachableWhen P C s) : I s.db :=
  db_invariant_from (good_init P) h₀ hstep h

/-- **One step of the system** leaves the database as it is or commits a transaction to it. -/
theorem step_db {P : Platform} {C : Db → Block → Prop} {s s' : State P} {a : Action (Start P) Pick}
    (h : Reachable P s) (hC : Machine.OnEvents (payflow P) (OnCommits C) s a)
    (hs : (payflow P).step s a = some s') : s'.db = s.db ∨
      ∃ b now ws, ∃ r : BRes b, Requires b s.db ∧ Does P b now s.db ws r ∧ C s.db b ∧
        s'.db = store.applyAll s.db ws := by
  have hsim := (Machine.good_step (fulfils P) (good_of_reachable h) hs).2
  unfold Machine.Simulates at hsim
  split at hsim
  · have hdb : (Machine.erase (payflow P) s').db = (Machine.erase (payflow P) s).db := by rw [hsim]
    exact Or.inl hdb
  · rename_i ev hev
    have hC' := hC ev hev
    generalize he : Machine.erase (payflow P) s = t at hsim hC'
    generalize he' : Machine.erase (payflow P) s' = t' at hsim
    have hdb : t.db = s.db := he ▸ rfl
    have hdb' : t'.db = s'.db := he' ▸ rfl
    cases hsim with
    | commit hp hnow hinv hpre hpost =>
      refine Or.inr ⟨_, _, _, _, hdb ▸ hpre, hdb ▸ hpost, hdb ▸ hC' _ _ rfl, ?_⟩
      rw [← hdb', ← hdb]
      rfl
    | _ => exact Or.inl (hdb'.symm.trans hdb)

/-- What a process is about to commit is what its transaction does. -/
theorem atCommit_step {P : Platform} {s s' : State P} (h : Reachable P s) {pid now : ℕ} {b : Block}
    {ws : List Write} {r : BRes b} (hc : Machine.AtCommit s pid b now ws r) {pick : Pick}
    (hs : (payflow P).step s (.step pid pick) = some s') :
    Requires b s.db ∧ Does P b now s.db ws r ∧ s'.db = store.applyAll s.db ws :=
  hc.step (good_of_reachable h) hs

/-- **One step of the system** leaves the database as it is or commits what a
process has written. -/
theorem step_commit {P : Platform} {s s' : State P} (h : Reachable P s)
    {a : Action (Start P) Pick} (hs : (payflow P).step s a = some s') : s'.db = s.db ∨
      ∃ pid pick b now ws, ∃ r : BRes b, a = .step pid pick ∧ Machine.AtCommit s pid b now ws r ∧
        Requires b s.db ∧ Does P b now s.db ws r ∧ s'.db = store.applyAll s.db ws :=
  Machine.step_commit (good_of_reachable h) hs

theorem inv_of_reachable {P : Platform} {s : State P} (h : Reachable P s) : Inv s.db :=
  (good_of_reachable h).inv

end Payflow.Spec
