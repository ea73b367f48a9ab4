import Mathlib.Data.List.Chain

/-! # Audit trails

A record of the changes of something that has a status: each event says which status it found,
`none` for the first one, and which it left. `Trail` is what makes the record complete. -/

namespace Payflow.Lib

variable {α σ : Type}

/-- A complete record: it begins with the creation, every later event has found what the one before
left, and the last one has left the current status. -/
structure Trail (found : α → Option σ) (left : α → σ) (Creation : α → Prop) (l : List α)
    (current : σ) : Prop where
  first : ∃ e, l.head? = some e ∧ Creation e ∧ found e = none
  linked : l.IsChain fun e e' => found e' = some (left e)
  last : l.getLast?.map left = some current

namespace Trail

variable {found : α → Option σ} {left : α → σ} {Creation : α → Prop} {l : List α} {s : σ}

theorem single {e : α} (hc : Creation e) (he : found e = none) :
    Trail found left Creation [e] (left e) :=
  ⟨⟨e, rfl, hc, he⟩, .singleton e, rfl⟩

theorem snoc (h : Trail found left Creation l s) {e : α} (he : found e = some s) :
    Trail found left Creation (l ++ [e]) (left e) := by
  obtain ⟨first, hhead, hc, hnone⟩ := h.first
  obtain ⟨last, hlast, hleft⟩ := Option.map_eq_some_iff.mp h.last
  refine ⟨⟨first, ?_, hc, hnone⟩, h.linked.append (.singleton e) ?_, ?_⟩
  · rw [List.head?_append, hhead]
    rfl
  · intro x hx y hy
    rw [hlast] at hx
    obtain rfl := Option.some.inj hx
    obtain rfl := Option.some.inj hy
    rw [he, hleft]
  · rw [List.getLast?_concat]
    rfl

theorem unique {s' : σ} (h : Trail found left Creation l s) (h' : Trail found left Creation l s') :
    s = s' :=
  Option.some.inj (h.last.symm.trans h'.last)

end Trail

end Payflow.Lib
