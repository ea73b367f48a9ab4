import Payflow.Lib.LockOrder
import Mathlib.Logic.Hydra

/-! # Schedules come to rest

A schedule lets the processes that are there take steps, in any order, and may kill them.

* `schedules_wellFounded`: no schedule goes on for ever, because every step replaces a process by
  one that has less to do.
* `exists_step`: as long as a process is at work, some process can take a step. Locks are waited for
  upwards (`Orderly`), so the process at work that holds the highest lock waits for nobody; and the
  environment can answer its next statement with new ids that nobody holds (`Supplied`). -/

namespace Payflow.Lib

variable {Db Write Lock Stmt Pick Block Ext ε Ans Start World : Type}
  {SRes : Stmt → Type} {BRes : Block → Type} {ERes : Ext → Type}

namespace Machine

variable (M : Machine Db Write Lock Stmt Pick Block Ext ε Ans Start World SRes BRes ERes)
  [DecidableEq Lock]

/-! ### No schedule goes on for ever -/

/-- The second status is a process before a step of its own, or before it is killed, and the first
one the process after it. -/
inductive Passes : Status Write Lock Stmt Block Ext ε Ans SRes BRes ERes →
    Status Write Lock Stmt Block Ext ε Ans SRes BRes ERes → Prop
  | own {s : State M} {pid pick x db w st st'} :
      advance M s pid pick x st = some (db, w, st') → Passes st' st
  | kill {st} : st.live = true → Passes .killed st

/-- One step of a schedule: a process takes a step or is killed. -/
inductive Schedules : State M → State M → Prop
  | own {s s' pid pick} : M.step s (.step pid pick) = some s' → Schedules s' s
  | kill {s s' pid} : M.step s (.kill pid) = some s' → Schedules s' s

variable {M}

theorem acc_done (out : Except ε Ans) : Acc (Passes M) (.done out) := by
  refine .intro _ fun st h => ?_
  cases h with
  | own hadv => simp [advance] at hadv
  | kill hlive => cases hlive

theorem acc_killed : Acc (Passes M) .killed := by
  refine .intro _ fun st h => ?_
  cases h with
  | own hadv => simp [advance] at hadv
  | kill hlive => cases hlive

/-- An open transaction, after which the process has less to do. -/
theorem acc_inTxn {b : Block}
    {k : Except ε (BRes b) → Prog (Call Block Ext) (Call.Res BRes ERes ε) ε Ans}
    (hk : ∀ res, Acc (Passes M) (.run (k res))) :
    ∀ (rest : Prog Stmt SRes ε (BRes b)) (ws : List Write) (ls : List Lock) (now : ℕ),
      Acc (Passes M) (.inTxn b ⟨rest, ws, ls, now⟩ k) := by
  intro rest
  induction rest with
  | pure a | raise e =>
    refine fun ws ls now => .intro _ fun st h => ?_
    cases h with
    | own hadv =>
      simp only [advance, Option.some.injEq, Prod.mk.injEq] at hadv
      obtain ⟨-, -, rfl⟩ := hadv
      exact hk _
    | kill _ => exact acc_killed
  | op o kk ih =>
    refine fun ws ls now => .intro _ fun st h => ?_
    cases h with
    | own hadv =>
      obtain ⟨r, ws', -, -, rfl⟩ := advance_stmt hadv
      exact ih r _ _ _
    | kill _ => exact acc_killed

theorem acc_run (p : Prog (Call Block Ext) (Call.Res BRes ERes ε) ε Ans) :
    Acc (Passes M) (.run p) := by
  induction p with
  | pure a | raise e =>
    refine .intro _ fun st h => ?_
    cases h with
    | own hadv =>
      simp only [advance, Option.some.injEq, Prod.mk.injEq] at hadv
      obtain ⟨-, -, rfl⟩ := hadv
      exact acc_done _
    | kill _ => exact acc_killed
  | op o k ih =>
    refine .intro _ fun st h => ?_
    cases h with
    | own hadv =>
      cases o with
      | txn b =>
        simp only [advance, Option.some.injEq, Prod.mk.injEq] at hadv
        obtain ⟨-, -, rfl⟩ := hadv
        exact acc_inTxn ih _ _ _ _
      | ext e =>
        simp only [advance] at hadv
        split at hadv
        · simp only [Option.some.injEq, Prod.mk.injEq] at hadv
          obtain ⟨-, -, rfl⟩ := hadv
          exact ih _
        · simp at hadv
    | kill _ => exact acc_killed

theorem passes_wellFounded : WellFounded (Passes M) := by
  refine ⟨fun st => ?_⟩
  cases st with
  | run p => exact acc_run p
  | inTxn b t k => exact acc_inTxn (fun res => acc_run (k res)) t.rest t.writes t.locks t.now
  | done out => exact acc_done out
  | killed => exact acc_killed

/-- The statuses of all processes. -/
def statuses (s : State M) : Multiset (Status Write Lock Stmt Block Ext ε Ans SRes BRes ERes) :=
  (s.procs.map (·.status) : List _)

theorem cutExpand_set {s s' : State M} {pid : ℕ} {x : Start}
    {st st' : Status Write Lock Stmt Block Ext ε Ans SRes BRes ERes}
    (hp : s.procs[pid]? = some ⟨x, st⟩) (hs : s'.procs = s.procs.set pid ⟨x, st'⟩)
    (hpass : Passes M st' st) : Relation.CutExpand (Passes M) (statuses s') (statuses s) := by
  refine ⟨{st'}, st, fun a ha => Multiset.mem_singleton.mp ha ▸ hpass, ?_⟩
  obtain ⟨hlt, hget⟩ := List.getElem?_eq_some_iff.mp hp
  have hnew := (List.set_perm_cons_eraseIdx hlt ⟨x, st'⟩).map (·.status)
  have hold := (List.getElem_cons_eraseIdx_perm hlt).map (·.status)
  rw [hget] at hold
  unfold statuses
  rw [hs, Multiset.coe_eq_coe.mpr hnew, ← Multiset.coe_eq_coe.mpr hold]
  simp only [List.map_cons, ← Multiset.cons_coe, ← Multiset.singleton_add]
  rw [add_right_comm, Multiset.add_comm {st'}, add_right_comm]

/-- **No schedule goes on for ever.** -/
theorem schedules_wellFounded : WellFounded (Schedules M) := by
  refine Subrelation.wf (fun {s' s} h => ?_)
    (InvImage.wf statuses (passes_wellFounded (M := M)).cutExpand)
  cases h with
  | own hs =>
    simp only [step] at hs
    split at hs
    · rename_i p hp
      split at hs
      · rename_i db w st' hadv
        obtain rfl := Option.some.inj hs
        exact cutExpand_set hp rfl (.own hadv)
      · simp at hs
    · simp at hs
  | kill hs =>
    simp only [step] at hs
    split at hs
    · rename_i p hp
      split_ifs at hs with hlive
      obtain rfl := Option.some.inj hs
      exact cutExpand_set hp rfl (.kill hlive)
    · simp at hs

end Machine

/-! ### Somebody can go on -/

/-- The environment can answer the rest of a transaction that holds the locks `ls`: every statement
with new locks, those of rank 0, that the transaction holds or that are in no given list. -/
def Store.Supplied (S : Store Db Write Lock Stmt Pick SRes) (rank : Lock → ℕ) {α : Type} :
    Prog Stmt SRes ε α → List Lock → Prop
  | .pure _, _ => True
  | .raise _, _ => True
  | .op o kk, ls =>
    (∀ now D (taken : List Lock), ∃ pick r ws, S.exec ⟨now, pick⟩ D o = some (r, ws) ∧
      ∀ l ∈ S.locks ⟨now, pick⟩ D o, rank l = 0 → l ∉ ls → l ∉ taken) ∧
    ∀ v D r ws, S.exec v D o = some (r, ws) → Supplied S rank (kk r) (ls ++ S.locks v D o)

section rules

variable {S : Store Db Write Lock Stmt Pick SRes} {rank : Lock → ℕ} {α β : Type}

/-- What can be answered with fewer locks can be answered with more. -/
theorem Store.Supplied.mono : ∀ {p : Prog Stmt SRes ε α} {ls ls' : List Lock},
    S.Supplied rank p ls → ls ⊆ ls' → S.Supplied rank p ls'
  | .pure _, _, _, _, _ => trivial
  | .raise _, _, _, _, _ => trivial
  | .op o kk, ls, ls', h, hls => by
    refine ⟨fun now D taken => ?_, fun v D r ws hx => (h.2 v D r ws hx).mono ?_⟩
    · obtain ⟨pick, r, ws, hx, hnew⟩ := h.1 now D taken
      exact ⟨pick, r, ws, hx, fun l hl hzero hnot => hnew l hl hzero fun hin => hnot (hls hin)⟩
    · exact List.append_subset.mpr ⟨List.Subset.trans hls (List.subset_append_left _ _),
        List.subset_append_right _ _⟩

theorem Store.Supplied.ite {c : Prop} [Decidable c] {p q : Prog Stmt SRes ε α} {ls : List Lock}
    (hp : S.Supplied rank p ls) (hq : S.Supplied rank q ls) :
    S.Supplied rank (if c then p else q) ls := by
  split_ifs
  · exact hp
  · exact hq

theorem Store.Supplied.ofExcept {x : Except ε β} {k : β → Prog Stmt SRes ε α} {ls : List Lock}
    (hk : ∀ b, S.Supplied rank (k b) ls) : S.Supplied rank ((Prog.ofExcept x).bind k) ls := by
  cases x with
  | error e => trivial
  | ok b => exact hk b

end rules

namespace Machine

variable {M : Machine Db Write Lock Stmt Pick Block Ext ε Ans Start World SRes BRes ERes}
  {G : Rely Db Lock} {K : Contract Db Write Block ε BRes} {rank : Lock → ℕ}

/-- The environment can answer an open transaction. -/
def StatusSupplied (M : Machine Db Write Lock Stmt Pick Block Ext ε Ans Start World SRes BRes ERes)
    (rank : Lock → ℕ) : Status Write Lock Stmt Block Ext ε Ans SRes BRes ERes → Prop
  | .inTxn _ t _ => M.Supplied rank t.rest t.locks
  | _ => True

variable [DecidableEq Lock]

theorem StatusSupplied.own (hbody : ∀ b, M.Supplied rank (M.body b) [])
    {s : State M} {pid : ℕ} {pick : Pick} {x : Start} {db : Db} {w : World}
    {st st' : Status Write Lock Stmt Block Ext ε Ans SRes BRes ERes}
    (h : StatusSupplied M rank st) (hs : advance M s pid pick x st = some (db, w, st')) :
    StatusSupplied M rank st' := by
  cases st with
  | run p =>
    cases p with
    | pure a | raise e =>
      simp only [advance, Option.some.injEq, Prod.mk.injEq] at hs
      obtain ⟨-, -, rfl⟩ := hs
      trivial
    | op o k =>
      cases o with
      | txn b =>
        simp only [advance, Option.some.injEq, Prod.mk.injEq] at hs
        obtain ⟨-, -, rfl⟩ := hs
        exact hbody b
      | ext e =>
        simp only [advance] at hs
        split at hs
        · simp only [Option.some.injEq, Prod.mk.injEq] at hs
          obtain ⟨-, -, rfl⟩ := hs
          trivial
        · simp at hs
  | inTxn b t k =>
    obtain ⟨rest, ws, ls, now⟩ := t
    cases rest with
    | op o kk =>
      obtain ⟨r, ws', hx, -, rfl⟩ := advance_stmt hs
      exact h.2 ⟨now, pick⟩ (M.applyAll s.db ws) r ws' hx
    | pure r | raise e =>
      simp only [advance, Option.some.injEq, Prod.mk.injEq] at hs
      obtain ⟨-, -, rfl⟩ := hs
      trivial
  | done out => simp [advance] at hs
  | killed => simp [advance] at hs

/-- The environment can answer all open transactions, in every state that is reached. -/
theorem supplied_of_reachable (hbody : ∀ b, M.Supplied rank (M.body b) [])
    {C : State M → Action Start Pick → Prop} {s₀ s : State M} (h₀ : s₀.procs = [])
    (h : ReachableBy M C s₀ s) {pid : ℕ} {x : Start}
    {st : Status Write Lock Stmt Block Ext ε Ans SRes BRes ERes}
    (hp : s.procs[pid]? = some ⟨x, st⟩) : StatusSupplied M rank st := by
  induction h generalizing pid x st with
  | refl => simp [h₀] at hp
  | step _ _ hs ih =>
    cases step_process hs hp with
    | own _ hp₀ hadv => exact (ih hp₀).own hbody hadv
    | other hp₀ => exact ih hp₀
    | killed => trivial
    | started => trivial

theorem step_of_advance {s : State M} {pid : ℕ} {pick : Pick} {x : Start} {db : Db} {w : World}
    {st st' : Status Write Lock Stmt Block Ext ε Ans SRes BRes ERes}
    (hp : s.procs[pid]? = some ⟨x, st⟩) (hadv : advance M s pid pick x st = some (db, w, st')) :
    ∃ s', M.step s (.step pid pick) = some s' :=
  ⟨{ s with db := db, world := w, procs := s.procs.set pid ⟨x, st'⟩ }, by
    simp only [step, hp, hadv]⟩

/-- **Somebody can go on.** If the transactions are orderly and the environment has an answer to
every statement and action, some process can take a step while a process is at work. -/
theorem exists_step {s : State M} (hgood : Good M G K s) (hpick : Nonempty Pick)
    (hext : ∀ pid w e, ∃ pick r w', M.ext pid pick w e = some (r, w'))
    (hord : ∀ (pid : ℕ) x st, s.procs[pid]? = some ⟨x, st⟩ → StatusOrderly M rank st)
    (hsup : ∀ (pid : ℕ) x st, s.procs[pid]? = some ⟨x, st⟩ → StatusSupplied M rank st)
    (hlive : ∃ p ∈ s.procs, p.status.live = true) :
    ∃ pid pick s', M.step s (.step pid pick) = some s' := by
  -- the process at work that holds the highest lock
  obtain ⟨p₀, hp₀, hlive₀⟩ := hlive
  obtain ⟨i₀, hi₀⟩ := List.mem_iff_getElem?.mp hp₀
  have hsome : ∃ i, i < s.procs.length ∧ ∃ p, s.procs[i]? = some p ∧ p.status.live = true :=
    ⟨i₀, (List.getElem?_eq_some_iff.mp hi₀).1, p₀, hi₀, hlive₀⟩
  classical
  obtain ⟨pid, hpid, hmax⟩ := Finset.exists_max_image
    ((Finset.range s.procs.length).filter fun i =>
      ∃ p, s.procs[i]? = some p ∧ p.status.live = true) (level rank s) (by
    obtain ⟨i, hi, hp⟩ := hsome
    exact ⟨i, Finset.mem_filter.mpr ⟨Finset.mem_range.mpr hi, hp⟩⟩)
  obtain ⟨-, ⟨x, st⟩, hp, hst⟩ := Finset.mem_filter.mp hpid
  obtain ⟨anyPick⟩ := hpick
  refine ⟨pid, ?_⟩
  cases st with
  | run p =>
    cases p with
    | pure a | raise e => exact ⟨anyPick, step_of_advance hp rfl⟩
    | op o k =>
      cases o with
      | txn b => exact ⟨anyPick, step_of_advance hp rfl⟩
      | ext e =>
        obtain ⟨pick, r, w, hx⟩ := hext pid s.world e
        have hadv : advance M s pid pick x (.run (.op (.ext e) k)) = some (s.db, w, .run (k r)) := by
          simp only [advance, hx]
        exact ⟨pick, step_of_advance hp hadv⟩
  | inTxn b t k =>
    obtain ⟨rest, ws, ls, now⟩ := t
    cases rest with
    | pure a | raise e => exact ⟨anyPick, step_of_advance hp rfl⟩
    | op o kk =>
      obtain ⟨pick, r, ws', hx, hnew⟩ := (hsup pid x _ hp).1 now (M.applyAll s.db ws)
        (othersLocks M s pid)
      have hheld : heldLocks M s pid = ls := by
        unfold heldLocks
        rw [hp]
        rfl
      -- it waits for nobody: who holds what it needs would hold a higher lock
      have hfree : ∀ l ∈ M.locks ⟨now, pick⟩ (M.applyAll s.db ws) o, l ∉ othersLocks M s pid := by
        intro l hl hother
        have hnot : l ∉ ls := fun hin => not_mem_othersLocks hgood hp l hin hother
        have hpos : 0 < rank l :=
          Nat.pos_of_ne_zero fun hzero => hnew l hl hzero hnot hother
        obtain ⟨j, q, -, hq, hlq⟩ := mem_othersLocks.mp hother
        have hj : l ∈ heldLocks M s j := by
          unfold heldLocks
          rw [hq]
          exact hlq
        have hlt := level_lt_of_needs hord hpos
          ⟨x, b, o, kk, ws, ls, now, k, pick, hp, hl⟩ (hheld ▸ hnot) hj
        have hqlive : q.status.live = true := by
          cases hqs : q.status with
          | inTxn b t k => rfl
          | _ => simp [hqs, Status.locks] at hlq
        have hle := hmax j (Finset.mem_filter.mpr
          ⟨Finset.mem_range.mpr (List.getElem?_eq_some_iff.mp hq).1, q, hq, hqlive⟩)
        omega
      have hadv : advance M s pid pick x (.inTxn b ⟨.op o kk, ws, ls, now⟩ k) =
          some (s.db, s.world, .inTxn b
            ⟨kk r, ws ++ ws', ls ++ M.locks ⟨now, pick⟩ (M.applyAll s.db ws) o, now⟩ k) := by
        simp only [advance, if_pos hfree, hx]
      exact ⟨pick, step_of_advance hp hadv⟩
  | done out => cases hst
  | killed => cases hst

end Machine

end Payflow.Lib
