import Payflow.Lib.Local
import Mathlib.Order.Interval.Finset.Nat
import Mathlib.Data.Nat.Count

/-! # Taking processes out of a run

A process whose steps change neither the store nor the world leaves no trace: the run without it is
a run too, and ends in the same store (`run_without`). The processes that are kept move up to the
numbers that become free, and the world is told their new numbers. -/

namespace Payflow.Lib

/-! ### Keeping some positions of a list -/

section keepAt

variable {α : Type} (keep : ℕ → Bool)

/-- The items at the positions that are kept. -/
def keepAt (l : List α) : List α := (l.zipIdx.filter fun p => keep p.2).map (·.1)

/-- Where a position comes to: the number of those before it that are kept. -/
def rank (i : ℕ) : ℕ := Nat.count (fun i => keep i = true) i

variable {keep}

theorem rank_succ (i : ℕ) : rank keep (i + 1) = rank keep i + if keep i then 1 else 0 :=
  Nat.count_succ _ i

theorem rank_lt {i j : ℕ} (hi : keep i = true) (h : i < j) : rank keep i < rank keep j :=
  Nat.count_strict_mono hi h

theorem rank_of_all {n i : ℕ} (h : ∀ j < n, keep j = true) (hi : i ≤ n) : rank keep i = i :=
  Nat.count_iff_forall.mpr fun j hj => h j (Nat.lt_of_lt_of_le hj hi)

theorem keepAt_append (l : List α) (x : α) :
    keepAt keep (l ++ [x]) = keepAt keep l ++ if keep l.length then [x] else [] := by
  simp only [keepAt, List.zipIdx_append, List.filter_append, List.map_append, List.zipIdx_cons,
    List.zipIdx_nil, Nat.zero_add]
  by_cases hk : keep l.length <;> simp [hk]

@[simp] theorem length_keepAt (l : List α) : (keepAt keep l).length = rank keep l.length := by
  induction l using List.reverseRecOn with
  | nil => simp [keepAt, rank]
  | append_singleton l x ih =>
    rw [keepAt_append, List.length_append, ih, List.length_append, List.length_singleton, rank_succ]
    cases keep l.length <;> simp

theorem getElem?_keepAt {l : List α} {i : ℕ} (hi : keep i = true) :
    (keepAt keep l)[rank keep i]? = l[i]? := by
  induction l using List.reverseRecOn with
  | nil => simp [keepAt]
  | append_singleton l x ih =>
    rw [keepAt_append]
    rcases Nat.lt_trichotomy i l.length with hlt | rfl | hlt
    · rw [List.getElem?_append_left (by simpa using rank_lt hi hlt), ih,
        List.getElem?_append_left hlt]
    · simp [hi]
    · have hle : rank keep (l.length + 1) ≤ rank keep i := Nat.count_monotone _ hlt
      rw [rank_succ] at hle
      rw [List.getElem?_eq_none, List.getElem?_eq_none]
      · simpa using Nat.succ_le_of_lt hlt
      · cases hk : keep l.length <;> simp [hk] at hle ⊢ <;> omega

theorem exists_of_getElem?_keepAt {l : List α} {j : ℕ} {x : α} (h : (keepAt keep l)[j]? = some x) :
    ∃ i, keep i = true ∧ rank keep i = j ∧ l[i]? = some x := by
  induction l using List.reverseRecOn with
  | nil => simp [keepAt] at h
  | append_singleton l y ih =>
    rw [keepAt_append, List.getElem?_append] at h
    split_ifs at h with hlt hk
    · obtain ⟨i, hi, hr, hx⟩ := ih h
      exact ⟨i, hi, hr, by rw [List.getElem?_append_left (List.getElem?_eq_some_iff.mp hx).1, hx]⟩
    · rw [length_keepAt] at hlt h
      obtain ⟨hj, rfl⟩ : j - rank keep l.length = 0 ∧ y = x := by
        simpa [List.getElem?_singleton] using h
      exact ⟨l.length, hk, by omega, by simp⟩
    · simp at h

theorem keepAt_set {l : List α} {i : ℕ} (hi : keep i = true) (x : α) :
    keepAt keep (l.set i x) = (keepAt keep l).set (rank keep i) x := by
  induction l using List.reverseRecOn with
  | nil => simp [keepAt]
  | append_singleton l y ih =>
    rcases Nat.lt_trichotomy i l.length with hlt | rfl | hlt
    · have hr : rank keep i < (keepAt keep l).length := by simpa using rank_lt hi hlt
      rw [List.set_append_left _ _ hlt, keepAt_append, keepAt_append, List.length_set, ih,
        List.set_append_left _ _ hr]
    · rw [List.set_append_right _ _ (Nat.le_refl _), keepAt_append,
        List.set_append_right _ _ (by simp)]
      simp [hi, keepAt_append]
    · have hle : rank keep (l.length + 1) ≤ rank keep i := Nat.count_monotone _ hlt
      rw [List.set_eq_of_length_le (by simpa using Nat.succ_le_of_lt hlt),
        List.set_eq_of_length_le (by simpa using hle)]

theorem keepAt_set_of_not {l : List α} {i : ℕ} (hi : keep i = false) (x : α) :
    keepAt keep (l.set i x) = keepAt keep l := by
  induction l using List.reverseRecOn with
  | nil => simp [keepAt]
  | append_singleton l y ih =>
    rcases Nat.lt_trichotomy i l.length with hlt | rfl | hlt
    · rw [List.set_append_left _ _ hlt, keepAt_append, keepAt_append, List.length_set, ih]
    · rw [List.set_append_right _ _ (Nat.le_refl _)]
      simp [hi, keepAt_append]
    · rw [List.set_eq_of_length_le (by simpa using Nat.succ_le_of_lt hlt)]

theorem keepAt_of_all {l : List α} (h : ∀ i < l.length, keep i = true) : keepAt keep l = l := by
  induction l using List.reverseRecOn with
  | nil => rfl
  | append_singleton l x ih =>
    rw [keepAt_append, ih fun i hi => h i (by simp; omega), if_pos (h _ (by simp))]

end keepAt

/-! ### Keeping some processes of a run -/

variable {Db Write Lock Stmt Pick Block Ext ε Ans Start World : Type}
  {SRes : Stmt → Type} {BRes : Block → Type} {ERes : Ext → Type}

namespace Machine

variable {M : Machine Db Write Lock Stmt Pick Block Ext ε Ans Start World SRes BRes ERes}

/-- `φ` tells the world the new numbers `f` of the processes, and nothing else depends on them. -/
structure Renumbers
    (M : Machine Db Write Lock Stmt Pick Block Ext ε Ans Start World SRes BRes ERes)
    (f : ℕ → ℕ) (φ : World → World) : Prop where
  start : ∀ w x, M.start (φ w) x = M.start w x
  ext : ∀ {pid pick w e w'} {r : ERes e}, M.ext pid pick w e = some (r, w') →
    M.ext (f pid) pick (φ w) e = some (r, φ w')
  finish : ∀ x out w, M.finish x out (φ w) = φ (M.finish x out w)

/-- The state with the processes that are kept. -/
def keepState (keep : ℕ → Bool) (φ : World → World) (s : State M) : State M :=
  { s with world := φ s.world, procs := keepAt keep s.procs }

/-- What the processes that are kept do in a run; so far `n` processes have been started. -/
def keepRun (keep : ℕ → Bool) : ℕ → List (Action Start Pick) → List (Action Start Pick)
  | _, [] => []
  | n, .start x :: as =>
    if keep n then .start x :: keepRun keep (n + 1) as else keepRun keep (n + 1) as
  | n, .step pid pick :: as =>
    if keep pid then .step (rank keep pid) pick :: keepRun keep n as else keepRun keep n as
  | n, .kill pid :: as =>
    if keep pid then .kill (rank keep pid) :: keepRun keep n as else keepRun keep n as
  | n, .tick m :: as => .tick m :: keepRun keep n as

variable {keep : ℕ → Bool} {φ : World → World} {s s' : State M}

theorem mem_othersLocks_keepState {pid : ℕ} {l : Lock}
    (h : l ∈ othersLocks M (keepState keep φ s) (rank keep pid)) : l ∈ othersLocks M s pid := by
  obtain ⟨j, p, hj, hp, hl⟩ := mem_othersLocks.mp h
  obtain ⟨i, -, rfl, hi⟩ := exists_of_getElem?_keepAt hp
  exact mem_othersLocks.mpr ⟨i, p, fun h => hj (h ▸ rfl), hi, hl⟩

variable [DecidableEq Lock]

theorem advance_keepState (H : Renumbers M (rank keep) φ) {pid : ℕ} {pick : Pick} {x : Start}
    {st st' : Status Write Lock Stmt Block Ext ε Ans SRes BRes ERes}
    {db : Db} {w : World} (h : advance M s pid pick x st = some (db, w, st')) :
    advance M (keepState keep φ s) (rank keep pid) pick x st = some (db, φ w, st') := by
  cases st with
  | run p =>
    cases p with
    | pure a | raise e =>
      simp only [advance, Option.some.injEq, Prod.mk.injEq] at h ⊢
      obtain ⟨rfl, rfl, rfl⟩ := h
      exact ⟨rfl, H.finish _ _ _, rfl⟩
    | op o k =>
      cases o with
      | txn b =>
        simp only [advance, Option.some.injEq, Prod.mk.injEq] at h ⊢
        obtain ⟨rfl, rfl, rfl⟩ := h
        exact ⟨rfl, rfl, rfl⟩
      | ext e =>
        simp only [advance] at h ⊢
        split at h
        · rename_i r w' hx
          simp only [Option.some.injEq, Prod.mk.injEq] at h
          obtain ⟨rfl, rfl, rfl⟩ := h
          have hx' : M.ext (rank keep pid) pick (keepState keep φ s).world e = some (r, φ w') :=
            H.ext hx
          rw [hx']
          rfl
        · simp at h
  | inTxn b t k =>
    obtain ⟨rest, ws, ls, now⟩ := t
    cases rest with
    | pure r | raise e =>
      simp only [advance, Option.some.injEq, Prod.mk.injEq] at h ⊢
      obtain ⟨rfl, rfl, rfl⟩ := h
      exact ⟨rfl, rfl, rfl⟩
    | op o kk =>
      simp only [advance] at h ⊢
      split_ifs at h with hfree
      have hdb : (keepState keep φ s).db = s.db := rfl
      have hfree' : ∀ l ∈ M.locks ⟨now, pick⟩ (M.applyAll s.db ws) o,
          l ∉ othersLocks M (keepState keep φ s) (rank keep pid) :=
        fun l hl hmem => hfree l hl (mem_othersLocks_keepState hmem)
      rw [hdb, if_pos hfree']
      split at h
      · rename_i r ws' hx
        simp only [Option.some.injEq, Prod.mk.injEq] at h
        obtain ⟨rfl, rfl, rfl⟩ := h
        rfl
      · simp at h
  | done out => simp [advance] at h
  | killed => simp [advance] at h

theorem step_keepState (H : Renumbers M (rank keep) φ) {pid : ℕ}
    (hk : keep pid = true) {pick : Pick}
    (hs : M.step s (.step pid pick) = some s') :
    M.step (keepState keep φ s) (.step (rank keep pid) pick) = some (keepState keep φ s') := by
  simp only [step] at hs
  split at hs
  · rename_i p hp
    split at hs
    · rename_i db w st' hadv
      obtain rfl := Option.some.inj hs
      have hp' : (keepState keep φ s).procs[rank keep pid]? = some p :=
        (getElem?_keepAt hk).trans hp
      simp only [step, hp', advance_keepState H hadv]
      simp only [keepState, keepAt_set hk]
    · simp at hs
  · simp at hs

theorem kill_keepState {pid : ℕ} (hk : keep pid = true)
    (hs : M.step s (.kill pid) = some s') :
    M.step (keepState keep φ s) (.kill (rank keep pid)) = some (keepState keep φ s') := by
  simp only [step] at hs
  split at hs
  · rename_i p hp
    split_ifs at hs with hlive
    obtain rfl := Option.some.inj hs
    have hp' : (keepState keep φ s).procs[rank keep pid]? = some p := (getElem?_keepAt hk).trans hp
    simp only [step, hp', if_pos hlive]
    simp only [keepState, keepAt_set hk]
  · simp at hs

theorem start_keepState (H : Renumbers M (rank keep) φ) {x : Start}
    (hk : keep s.procs.length = true) (hs : M.step s (.start x) = some s') :
    M.step (keepState keep φ s) (.start x) = some (keepState keep φ s') := by
  simp only [step] at hs
  split at hs
  · rename_i p hp
    obtain rfl := Option.some.inj hs
    have hp' : M.start (keepState keep φ s).world x = some p := (H.start _ _).trans hp
    simp only [step, hp']
    simp only [keepState, keepAt_append, if_pos hk]
  · simp at hs

theorem keepState_of_start {x : Start} (hk : keep s.procs.length = false)
    (hs : M.step s (.start x) = some s') : keepState keep φ s' = keepState keep φ s := by
  simp only [step] at hs
  split at hs
  · obtain rfl := Option.some.inj hs
    simp [keepState, keepAt_append, hk]
  · simp at hs

theorem keepState_of_step {pid : ℕ} (hk : keep pid = false) {pick : Pick}
    (hs : M.step s (.step pid pick) = some s') (hdb : s'.db = s.db) (hw : s'.world = s.world) :
    keepState keep φ s' = keepState keep φ s := by
  simp only [step] at hs
  split at hs
  · split at hs
    · obtain rfl := Option.some.inj hs
      obtain rfl : _ = s.db := hdb
      obtain rfl : _ = s.world := hw
      simp only [keepState, keepAt_set_of_not hk]
    · simp at hs
  · simp at hs

theorem keepState_of_kill {pid : ℕ} (hk : keep pid = false) (hs : M.step s (.kill pid) = some s') :
    keepState keep φ s' = keepState keep φ s := by
  simp only [step] at hs
  split at hs
  · split_ifs at hs with hlive
    obtain rfl := Option.some.inj hs
    simp only [keepState, keepAt_set_of_not hk]
  · simp at hs

theorem run_cons {a : Action Start Pick} {as : List (Action Start Pick)}
    (h : M.run s (a :: as) = some s') : ∃ s₁, M.step s a = some s₁ ∧ M.run s₁ as = some s' := by
  simp only [run, runWhen, if_true] at h
  split at h
  · exact ⟨_, ‹_›, h⟩
  · simp at h

theorem run_of_step {s₁ : State M} {a : Action Start Pick} {as : List (Action Start Pick)}
    (hs : M.step s a = some s₁) (h : M.run s₁ as = some s') : M.run s (a :: as) = some s' := by
  simp only [run, runWhen, if_true, hs]
  exact h

/-- **A run without the processes that leave no trace.** `J` holds along the run; while it does, the
processes that are not kept change neither the store nor the world. -/
theorem run_keepRun (keep : ℕ → Bool) (H : Renumbers M (rank keep) φ) {J : State M → Prop}
    (hJ : ∀ {s a s'}, J s → M.step s a = some s' → J s')
    {as : List (Action Start Pick)}
    (hsilent : ∀ {s pid pick s₁ bs}, J s → keep pid = false → M.step s (.step pid pick) = some s₁ →
      M.run s₁ bs = some s' → s₁.db = s.db ∧ s₁.world = s.world)
    (h₀ : J s) (h : M.run s as = some s') :
    M.run (keepState keep φ s) (keepRun keep s.procs.length as) = some (keepState keep φ s') := by
  induction as generalizing s with
  | nil =>
    obtain rfl := Option.some.inj h
    rfl
  | cons a as ih =>
    obtain ⟨s₁, hs, hrun⟩ := run_cons h
    have hrest := ih (hJ h₀ hs) hrun
    have hlen := length_procs hs
    cases a with
    | start x =>
      simp only [keepRun]
      rw [hlen] at hrest
      by_cases hk : keep s.procs.length = true
      · rw [if_pos hk]
        exact run_of_step (start_keepState H hk hs) hrest
      · rw [if_neg hk]
        rwa [keepState_of_start (by simpa using hk) hs] at hrest
    | step pid pick =>
      simp only [keepRun]
      rw [hlen] at hrest
      by_cases hk : keep pid = true
      · rw [if_pos hk]
        exact run_of_step (step_keepState H hk hs) hrest
      · rw [if_neg hk]
        have hk : keep pid = false := by simpa using hk
        obtain ⟨hdb, hw⟩ := hsilent h₀ hk hs hrun
        rwa [keepState_of_step hk hs hdb hw] at hrest
    | kill pid =>
      simp only [keepRun]
      rw [hlen] at hrest
      by_cases hk : keep pid = true
      · rw [if_pos hk]
        exact run_of_step (kill_keepState hk hs) hrest
      · rw [if_neg hk]
        rwa [keepState_of_kill (by simpa using hk) hs] at hrest
    | tick n =>
      rw [hlen] at hrest
      obtain rfl := Option.some.inj hs
      exact run_of_step rfl hrest

end Machine

end Payflow.Lib
