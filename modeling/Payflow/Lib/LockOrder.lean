import Payflow.Lib.Local
import Mathlib.Logic.Relation

/-! # The order of the locks

The locks have ranks. A transaction is orderly if it waits only for locks of a higher rank than all
those that it holds; locks of rank 0 are new, and nothing waits for them. If all transactions are
orderly, whoever waits holds locks of lower rank only than the one it waits for, and no cycle of
waiting processes can close. -/

namespace Payflow.Lib

variable {Db Write Lock Stmt Pick Block Ext ε Ans Start World : Type}
  {SRes : Stmt → Type} {BRes : Block → Type} {ERes : Ext → Type}

/-- The rest of a transaction that holds the locks `ls` is orderly, whatever the others do. -/
def Store.Orderly (S : Store Db Write Lock Stmt Pick SRes) (rank : Lock → ℕ) {α : Type} :
    Prog Stmt SRes ε α → List Lock → Prop
  | .pure _, _ => True
  | .raise _, _ => True
  | .op o kk, ls => ∀ v D,
      (∀ l ∈ S.locks v D o, 0 < rank l → l ∉ ls → ∀ l' ∈ ls, rank l' < rank l) ∧
      ∀ r ws, S.exec v D o = some (r, ws) → Orderly S rank (kk r) (ls ++ S.locks v D o)

section rules

variable {S : Store Db Write Lock Stmt Pick SRes} {rank : Lock → ℕ} {α : Type}

theorem Store.Orderly.congr : ∀ {p : Prog Stmt SRes ε α} {ls ls' : List Lock}, S.Orderly rank p ls →
    (∀ l, 0 < rank l → (l ∈ ls' ↔ l ∈ ls)) → S.Orderly rank p ls'
  | .pure _, _, _, _, _ => trivial
  | .raise _, _, _, _, _ => trivial
  | .op o kk, ls, ls', h, hls => fun v D => by
    obtain ⟨hwait, hrest⟩ := h v D
    refine ⟨fun l hl hpos hnew l' hl' => ?_, fun r ws hx => (hrest r ws hx).congr fun l hpos => ?_⟩
    · rcases Nat.eq_zero_or_pos (rank l') with hzero | hpos'
      · omega
      · exact hwait l hl hpos (fun hmem => hnew ((hls l hpos).mpr hmem)) l' ((hls l' hpos').mp hl')
    · rw [List.mem_append, List.mem_append, hls l hpos]

/-- The rule for a statement that needs no lock but new ones and those that are held. -/
theorem Store.Orderly.stay {o : Stmt} {kk : SRes o → Prog Stmt SRes ε α} {ls : List Lock}
    (hlocks : ∀ v D, ∀ l ∈ S.locks v D o, 0 < rank l → l ∈ ls)
    (hk : ∀ v D r ws, S.exec v D o = some (r, ws) → S.Orderly rank (kk r) ls) :
    S.Orderly rank (.op o kk) ls := by
  refine fun v D => ⟨fun l hl hpos hnew => absurd (hlocks v D l hl hpos) hnew,
    fun r ws hx => (hk v D r ws hx).congr fun l hpos => ?_⟩
  rw [List.mem_append]
  exact ⟨fun h => h.elim id fun hl => hlocks v D l hl hpos, Or.inl⟩

theorem Store.Orderly.ite {c : Prop} [Decidable c] {p q : Prog Stmt SRes ε α} {ls : List Lock}
    (hp : S.Orderly rank p ls) (hq : S.Orderly rank q ls) :
    S.Orderly rank (if c then p else q) ls := by
  split_ifs
  · exact hp
  · exact hq

theorem Store.Orderly.ofExcept {β : Type} {x : Except ε β} {k : β → Prog Stmt SRes ε α}
    {ls : List Lock} (hk : ∀ b, S.Orderly rank (k b) ls) :
    S.Orderly rank ((Prog.ofExcept x).bind k) ls := by
  cases x with
  | error e => trivial
  | ok b => exact hk b

end rules

namespace Machine

variable (M : Machine Db Write Lock Stmt Pick Block Ext ε Ans Start World SRes BRes ERes)
  (rank : Lock → ℕ)

/-- The process stands before a statement that needs the lock. -/
def Needs (s : State M) (pid : ℕ) (l : Lock) : Prop :=
  ∃ x b o kk ws ls now k pick, s.procs[pid]? = some ⟨x, .inTxn b ⟨.op o kk, ws, ls, now⟩ k⟩ ∧
    l ∈ M.locks ⟨now, pick⟩ (M.applyAll s.db ws) o

/-- The locks that a process holds. -/
def heldLocks (s : State M) (pid : ℕ) : List Lock :=
  match s.procs[pid]? with
  | some p => p.status.locks
  | none => []

/-- An open transaction is orderly. -/
def StatusOrderly : Status Write Lock Stmt Block Ext ε Ans SRes BRes ERes → Prop
  | .inTxn _ t _ => M.Orderly rank t.rest t.locks
  | _ => True

variable {M rank}

theorem StatusOrderly.own (hbody : ∀ b, M.Orderly rank (M.body b) []) [DecidableEq Lock]
    {s : State M} {pid : ℕ} {pick : Pick} {x : Start} {db : Db} {w : World}
    {st st' : Status Write Lock Stmt Block Ext ε Ans SRes BRes ERes} (h : StatusOrderly M rank st)
    (hs : advance M s pid pick x st = some (db, w, st')) : StatusOrderly M rank st' := by
  cases st with
  | run p =>
    cases p with
    | pure a | raise e =>
      simp only [advance, Option.some.injEq, Prod.mk.injEq] at hs
      obtain ⟨-, -, rfl⟩ := hs
      trivial
    | op o k =>
      cases o with
      | txn b =>
        simp only [advance, Option.some.injEq, Prod.mk.injEq] at hs
        obtain ⟨-, -, rfl⟩ := hs
        exact hbody b
      | ext e =>
        simp only [advance] at hs
        split at hs
        · simp only [Option.some.injEq, Prod.mk.injEq] at hs
          obtain ⟨-, -, rfl⟩ := hs
          trivial
        · simp at hs
  | inTxn b t k =>
    obtain ⟨rest, ws, ls, now⟩ := t
    cases rest with
    | op o kk =>
      obtain ⟨r, ws', hx, -, rfl⟩ := advance_stmt hs
      exact (h ⟨now, pick⟩ (M.applyAll s.db ws)).2 r ws' hx
    | pure r | raise e =>
      simp only [advance, Option.some.injEq, Prod.mk.injEq] at hs
      obtain ⟨-, -, rfl⟩ := hs
      trivial
  | done out => simp [advance] at hs
  | killed => simp [advance] at hs

/-- All open transactions are orderly, in every state that is reached. -/
theorem orderly_of_reachable (hbody : ∀ b, M.Orderly rank (M.body b) []) [DecidableEq Lock]
    {C : State M → Action Start Pick → Prop} {s₀ s : State M} (h₀ : s₀.procs = [])
    (h : ReachableBy M C s₀ s) {pid : ℕ} {x : Start}
    {st : Status Write Lock Stmt Block Ext ε Ans SRes BRes ERes}
    (hp : s.procs[pid]? = some ⟨x, st⟩) : StatusOrderly M rank st := by
  induction h generalizing pid x st with
  | refl => simp [h₀] at hp
  | step _ _ hs ih =>
    cases step_process hs hp with
    | own _ hp₀ hadv => exact (ih hp₀).own hbody hadv
    | other hp₀ => exact ih hp₀
    | killed => trivial
    | started => trivial

/-- The highest rank of the locks that a process holds. -/
def level (rank : Lock → ℕ) (s : State M) (pid : ℕ) : ℕ :=
  (heldLocks M s pid).foldr (fun l n => max (rank l) n) 0

theorem rank_le_level {s : State M} {pid : ℕ} {l : Lock} (h : l ∈ heldLocks M s pid) :
    rank l ≤ level rank s pid := by
  unfold level
  generalize heldLocks M s pid = ls at h
  induction ls with
  | nil => cases h
  | cons l' ls ih =>
    rcases List.mem_cons.mp h with rfl | h
    · exact Nat.le_max_left _ _
    · exact Nat.le_trans (ih h) (Nat.le_max_right _ _)

theorem level_lt {s : State M} {pid n : ℕ} (hpos : 0 < n)
    (h : ∀ l ∈ heldLocks M s pid, rank l < n) : level rank s pid < n := by
  unfold level
  generalize heldLocks M s pid = ls at h
  induction ls with
  | nil => exact hpos
  | cons l' ls ih =>
    exact Nat.max_lt.mpr ⟨h l' List.mem_cons_self, ih fun l hl => h l (List.mem_cons_of_mem _ hl)⟩

/-- **Waiting goes up.** A process that waits for a lock of another holds locks of lower ranks. -/
theorem level_lt_of_needs {s : State M}
    (h : ∀ (pid : ℕ) x st, s.procs[pid]? = some ⟨x, st⟩ → StatusOrderly M rank st) {i j : ℕ}
    {l : Lock} (hpos : 0 < rank l) (hi : Needs M s i l) (hnew : l ∉ heldLocks M s i)
    (hj : l ∈ heldLocks M s j) : level rank s i < level rank s j := by
  obtain ⟨x, b, o, kk, ws, ls, now, k, pick, hp, hl⟩ := hi
  have hheld : heldLocks M s i = ls := by
    unfold heldLocks
    rw [hp]
    rfl
  rw [hheld] at hnew
  have hlt := (h i x _ hp ⟨now, pick⟩ (M.applyAll s.db ws)).1 l hl hpos hnew
  calc
    level rank s i < rank l := level_lt hpos (hheld ▸ hlt)
    _ ≤ level rank s j := rank_le_level hj

end Machine

theorem acyclic_of_lt {α : Type} {R : α → α → Prop} {f : α → ℕ} (h : ∀ a b, R a b → f a < f b)
    (a : α) : ¬ Relation.TransGen R a a := by
  have hlt : ∀ {b c}, Relation.TransGen R b c → f b < f c := by
    intro b c hbc
    induction hbc with
    | single hr => exact h _ _ hr
    | tail _ hr ih => exact Nat.lt_trans ih (h _ _ hr)
  exact fun hcycle => Nat.lt_irrefl _ (hlt hcycle)

end Payflow.Lib
