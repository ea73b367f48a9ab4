import Mathlib.Algebra.BigOperators.Group.List.Basic
import Mathlib.Algebra.GroupWithZero.Nat
import Mathlib.Tactic.Common

/-! # Sums over the entries of a list

A column of a list whose entries are known by their numbers: entries are appended and replaced, and
a column may depend on the number. -/

namespace Payflow.Lib

variable {α : Type} {f g : ℕ → α → ℕ}

/-- The sum of a column. -/
def sumIdx (f : ℕ → α → ℕ) (l : List α) : ℕ := (l.mapIdx f).sum

@[simp] theorem sumIdx_nil : sumIdx f [] = 0 := rfl

theorem sumIdx_cons (a : α) (l : List α) :
    sumIdx f (a :: l) = f 0 a + sumIdx (fun i => f (i + 1)) l := by
  simp [sumIdx, List.mapIdx_cons]

theorem sumIdx_concat (l : List α) (a : α) : sumIdx f (l ++ [a]) = sumIdx f l + f l.length a := by
  simp [sumIdx]

theorem sumIdx_set : ∀ {l : List α} {i : ℕ} {a : α} {f : ℕ → α → ℕ}, l[i]? = some a → ∀ b,
    sumIdx f (l.set i b) + f i a = sumIdx f l + f i b
  | [], i, a, f, h, b => by simp at h
  | c :: l, 0, a, f, h, b => by
    obtain rfl : c = a := by simpa using h
    rw [List.set_cons_zero, sumIdx_cons, sumIdx_cons]
    omega
  | c :: l, i + 1, a, f, h, b => by
    have ih := sumIdx_set (f := fun i => f (i + 1)) (by simpa using h : l[i]? = some a) b
    rw [List.set_cons_succ, sumIdx_cons, sumIdx_cons]
    omega

theorem sumIdx_le : ∀ {l : List α} {f g : ℕ → α → ℕ},
    (∀ (i : ℕ) a, l[i]? = some a → f i a ≤ g i a) → sumIdx f l ≤ sumIdx g l
  | [], _, _, _ => Nat.le_refl _
  | a :: l, f, g, h => by
    have h₀ := h 0 a rfl
    have ih : sumIdx (fun i => f (i + 1)) l ≤ sumIdx (fun i => g (i + 1)) l :=
      sumIdx_le fun i b hb => h (i + 1) b hb
    rw [sumIdx_cons, sumIdx_cons]
    omega

theorem sumIdx_add : ∀ (l : List α) {f g : ℕ → α → ℕ},
    sumIdx (fun i a => f i a + g i a) l = sumIdx f l + sumIdx g l
  | [], _, _ => rfl
  | a :: l, f, g => by
    rw [sumIdx_cons, sumIdx_cons, sumIdx_cons, sumIdx_add l]
    omega

end Payflow.Lib
