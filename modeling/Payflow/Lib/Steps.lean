import Mathlib.Tactic.SplitIfs

/-! # Runs of a step function

The states a step function reaches while its steps meet a condition, the rule for invariants, and
runs of given actions. -/

namespace Payflow.Lib

variable {S A : Type} {step : S → A → Option S} {C : S → A → Prop}

/-- The states reached from `s₀` by steps that all meet `C`. -/
inductive Reaches (step : S → A → Option S) (C : S → A → Prop) (s₀ : S) : S → Prop
  | refl : Reaches step C s₀ s₀
  | step {s s' : S} {a : A} : Reaches step C s₀ s → C s a → step s a = some s' →
      Reaches step C s₀ s'

/-- Run a list of actions that all pass a check. -/
def runSteps (step : S → A → Option S) (c : S → A → Bool) (s : S) : List A → Option S
  | [] => some s
  | a :: as =>
    if c s a then
      match step s a with
      | some s' => runSteps step c s' as
      | none => none
    else none

namespace Reaches

/-- **The rule for invariants.** -/
theorem invariant {I : S → Prop} {s₀ s : S} (h₀ : I s₀)
    (hstep : ∀ {s a s'}, I s → C s a → step s a = some s' → I s')
    (h : Reaches step C s₀ s) : I s := by
  induction h with
  | refl => exact h₀
  | step _ hc hs ih => exact hstep ih hc hs

theorem imp {C' : S → A → Prop} {s₀ s : S} (h : Reaches step C s₀ s)
    (hC : ∀ s a, C s a → C' s a) : Reaches step C' s₀ s := by
  induction h with
  | refl => exact .refl
  | step _ hc hs ih => exact .step ih (hC _ _ hc) hs

theorem trans {s₀ s s' : S} (h : Reaches step C s₀ s) (h' : Reaches step C s s') :
    Reaches step C s₀ s' := by
  induction h' with
  | refl => exact h
  | step _ hc hs ih => exact .step ih hc hs

theorem runSteps {c : S → A → Bool} (hc : ∀ s a, c s a = true → C s a) {s₀ : S} :
    ∀ {as : List A} {s s' : S}, Reaches step C s₀ s → runSteps step c s as = some s' →
      Reaches step C s₀ s'
  | [], s, s', h, hr => Option.some.inj hr ▸ h
  | a :: as, s, s', h, hr => by
    unfold Lib.runSteps at hr
    split_ifs at hr with hca
    split at hr
    · rename_i s₁ hs
      exact runSteps hc (.step h (hc s a hca) hs) hr
    · simp at hr

end Reaches

end Payflow.Lib
