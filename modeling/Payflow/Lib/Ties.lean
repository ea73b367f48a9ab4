import Mathlib.Data.List.Sort
import Mathlib.Order.Lattice.Nat
import Mathlib.Tactic.SplitIfs

/-! # Sorting by time

A query that sorts by a time alone may return entries of the same time in any order. `timeOrder tie`
is the order of one such query, which breaks ties by a rank of the entries' ids. A list is returned
as it is by all of them exactly if its times increase strictly. -/

namespace Payflow.Lib

variable {α ι : Type} {time : α → ℕ} {id : α → ι}

/-- The order by time, and by the rank of the ids where the times agree. -/
abbrev timeOrder (time : α → ℕ) (id : α → ι) (tie : ι → ℕ) (a b : α) : Prop :=
  time a < time b ∨ time a = time b ∧ tie (id a) ≤ tie (id b)

variable (time id) in
theorem timeOrder_total (tie : ι → ℕ) : Std.Total (timeOrder time id tie) := by
  refine ⟨fun a b => ?_⟩
  unfold timeOrder
  omega

variable (time id) in
theorem timeOrder_trans (tie : ι → ℕ) : IsTrans α (timeOrder time id tie) := by
  refine ⟨fun a b c hab hbc => ?_⟩
  unfold timeOrder at hab hbc ⊢
  omega

theorem insertionSort_of_increasing {l : List α} (h : l.Pairwise fun a b => time a < time b)
    (tie : ι → ℕ) : l.insertionSort (timeOrder time id tie) = l :=
  (h.imp fun hab => Or.inl hab).insertionSort_eq

/-- **No tie matters** exactly if the times increase strictly. -/
theorem insertionSort_every_tie_iff {l : List α} (hids : (l.map id).Nodup) :
    (∀ tie : ι → ℕ, l.insertionSort (timeOrder time id tie) = l) ↔
      l.Pairwise fun a b => time a < time b := by
  refine ⟨fun h => ?_, fun h tie => insertionSort_of_increasing h tie⟩
  classical
  rw [List.pairwise_iff_getElem]
  intro i j hi hj hij
  have hne : id l[j] ≠ id l[i] := by
    intro he
    have hi' : i < (l.map id).length := by simpa using hi
    have hj' : j < (l.map id).length := by simpa using hj
    have hmap : (l.map id)[i] = (l.map id)[j] := by simp [he]
    exact absurd (hids.getElem_inj_iff.mp hmap) (Nat.ne_of_lt hij)
  -- the rank that puts the earlier entry last
  let tie : ι → ℕ := fun x => if x = id l[i] then 1 else 0
  have htie : ¬ tie (id l[i]) ≤ tie (id l[j]) := by simp [tie, hne]
  have htotal := timeOrder_total time id tie
  have htrans := timeOrder_trans time id tie
  have hsorted := List.pairwise_insertionSort (timeOrder time id tie) l
  rw [h tie] at hsorted
  rcases List.pairwise_iff_getElem.mp hsorted i j hi hj hij with hlt | ⟨-, hle⟩
  · exact hlt
  · exact absurd hle htie

theorem pairwise_groups_iff {κ : Type} [DecidableEq κ] {group : α → κ} {R : α → α → Prop}
    {l : List α} : (∀ g, (l.filter fun a => group a = g).Pairwise R) ↔
      l.Pairwise fun a b => group a = group b → R a b := by
  simp only [List.pairwise_filter, decide_eq_true_eq]
  constructor
  · intro h
    rw [List.pairwise_iff_getElem]
    intro i j hi hj hij hg
    exact List.pairwise_iff_getElem.mp (h (group l[j])) i j hi hj hij hg rfl
  · intro h g
    refine h.imp fun hR ha hb => hR (ha.trans hb.symm)

end Payflow.Lib
