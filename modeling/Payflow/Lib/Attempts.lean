import Mathlib.Tactic.SplitIfs

/-! # Attempts that are made once

Something is attempted, each time under a new key, until an attempt counts; or it is given up. `Alone`
says that no two attempts count, and none of what is given up. It is kept when a further attempt that
counts is made only while none does, and when nothing is given up of which one does. -/

namespace Payflow.Lib

variable {X Key : Type} {Counts Counts' : X → Key → Prop} {GivenUp GivenUp' : X → Prop}

/-- At most one attempt counts, and none of what is given up. -/
structure Alone (Counts : X → Key → Prop) (GivenUp : X → Prop) : Prop where
  once : ∀ x k k', Counts x k → Counts x k' → k = k'
  none : ∀ x k, GivenUp x → ¬ Counts x k

namespace Alone

/-- No attempt begins to count, and nothing is given up of which one does. -/
theorem keep (h : Alone Counts GivenUp) (hcounts : ∀ x k, Counts' x k → Counts x k)
    (hgiven : ∀ x, GivenUp' x → GivenUp x ∨ ∀ k, ¬ Counts x k) : Alone Counts' GivenUp' := by
  refine ⟨fun x k k' hk hk' => h.once x k k' (hcounts x k hk) (hcounts x k' hk'), fun x k hx hk => ?_⟩
  rcases hgiven x hx with hx | hno
  · exact h.none x k hx (hcounts x k hk)
  · exact hno k (hcounts x k hk)

theorem attempt (h : Alone Counts GivenUp) (x₀ : X) (k₀ : Key)
    (hcounts : ∀ x k, Counts' x k → Counts x k ∨ (x = x₀ ∧ k = k₀))
    (hfree : ∀ k, ¬ Counts x₀ k) (hgiven : ¬ GivenUp x₀) : Alone Counts' GivenUp := by
  constructor
  · intro x k k' hk hk'
    rcases hcounts x k hk with hk | ⟨rfl, rfl⟩
    · rcases hcounts x k' hk' with hk' | ⟨rfl, -⟩
      · exact h.once x k k' hk hk'
      · exact absurd hk (hfree k)
    · rcases hcounts x k' hk' with hk' | ⟨-, rfl⟩
      · exact absurd hk' (hfree k')
      · rfl
  · intro x k hx hk
    rcases hcounts x k hk with hk | ⟨rfl, -⟩
    · exact h.none x k hx hk
    · exact hgiven hx

end Alone

end Payflow.Lib
