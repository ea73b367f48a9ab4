import Mathlib.Tactic.SplitIfs

/-! # Records that end once

A server keeps records under ids. A record is added while it is running, and later its status is set
to what it has ended with. `Kept` is what this leaves of the records that a client knows. -/

namespace Payflow.Lib

/-- A kind of records, by their status. -/
structure Records (R St : Type) where
  status : R → St
  set : St → R → R
  running : St
  set_status : ∀ r, set (status r) r = r
  status_set : ∀ st r, status (set st r) = st
  set_set : ∀ st st' r, set st' (set st r) = set st' r

namespace Records

variable {R St Key : Type} (K : Records R St)

/-- A later version of a record: it may have ended, but not twice. -/
def Le (r r' : R) : Prop := ∃ st, r' = K.set st r ∧ (K.status r ≠ K.running → st = K.status r)

/-- No record is lost. -/
def Kept (find find' : Key → Option R) : Prop :=
  ∀ id r, find id = some r → ∃ r', find' id = some r' ∧ K.Le r r'

variable {K}

theorem Le.refl (r : R) : K.Le r r := ⟨K.status r, (K.set_status r).symm, fun _ => rfl⟩

theorem Le.trans {r r' r'' : R} (h : K.Le r r') (h' : K.Le r' r'') : K.Le r r'' := by
  obtain ⟨st, rfl, hst⟩ := h
  obtain ⟨st', rfl, hst'⟩ := h'
  refine ⟨st', K.set_set st st' r, fun hr => ?_⟩
  rw [K.status_set] at hst'
  have hst := hst hr
  rw [hst' (by rw [hst]; exact hr), hst]

theorem le_set {r : R} (h : K.status r = K.running) (st : St) : K.Le r (K.set st r) :=
  ⟨st, rfl, fun hne => absurd h hne⟩

namespace Kept

variable {find find' find'' : Key → Option R}

theorem refl (find : Key → Option R) : K.Kept find find := fun _ r hr => ⟨r, hr, .refl r⟩

theorem trans (h : K.Kept find find') (h' : K.Kept find' find'') : K.Kept find find'' := by
  intro id r hr
  obtain ⟨r', hr', hle⟩ := h id r hr
  obtain ⟨r'', hr'', hle'⟩ := h' id r' hr'
  exact ⟨r'', hr'', hle.trans hle'⟩

theorem same (h : ∀ id, find' id = find id) : K.Kept find find' :=
  fun id r hr => ⟨r, (h id).trans hr, .refl r⟩

theorem set [DecidableEq Key] {id : Key} {r : R}
    (h : ∀ id', find' id' = if id' = id then some r else find id')
    (hold : ∀ r₀, find id = some r₀ → K.Le r₀ r) : K.Kept find find' := by
  intro id' r' hr'
  by_cases he : id' = id
  · subst he
    exact ⟨r, by rw [h, if_pos rfl], hold r' hr'⟩
  · exact ⟨r', by rw [h, if_neg he, hr'], .refl r'⟩

theorem ended (h : K.Kept find find') {id : Key} {r : R} (hr : find id = some r)
    (hst : K.status r ≠ K.running) : find' id = some r := by
  obtain ⟨r', hr', st, rfl, hkeep⟩ := h id r hr
  rw [hkeep hst, K.set_status] at hr'
  exact hr'

end Kept

end Records

end Payflow.Lib
