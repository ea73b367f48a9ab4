import Mathlib.Algebra.BigOperators.Group.List.Basic
import Mathlib.Algebra.GroupWithZero.Nat
import Mathlib.Data.List.Forall2
import Mathlib.Data.List.Nodup
import Mathlib.Tactic.Common

/-! # Tables that only grow

A table is the list of its rows. `Grows R` says that rows are appended and that a row is replaced
only by one that is `R`-above it; nothing is deleted. `total` sums a column over the selected
rows, `setWhere` is an `UPDATE`. -/

namespace Payflow.Lib

variable {α κ : Type}

/-- Every row of the first table is still in the second one, in the same order and moved along `R`;
the rest of the second table is new. -/
inductive Grows (R : α → α → Prop) : List α → List α → Prop
  | nil (new : List α) : Grows R [] new
  | cons {a b : α} {l l' : List α} : R a b → Grows R l l' → Grows R (a :: l) (b :: l')

/-- Replace the rows that satisfy `p`. -/
def setWhere (p : α → Bool) (f : α → α) (l : List α) : List α :=
  l.map fun a => if p a then f a else a

/-- The sum of a column over the selected rows. -/
def total (sel : α → Bool) (col : α → ℕ) (l : List α) : ℕ := ((l.filter sel).map col).sum

/-! ### Growth -/

namespace Grows

variable {R : α → α → Prop}

theorem refl (hR : ∀ a, R a a) : ∀ l : List α, Grows R l l
  | [] => .nil []
  | a :: l => .cons (hR a) (refl hR l)

theorem append (hR : ∀ a, R a a) (new : List α) : ∀ l : List α, Grows R l (l ++ new)
  | [] => .nil new
  | a :: l => .cons (hR a) (append hR new l)

theorem setWhere (hR : ∀ a, R a a) {p : α → Bool} {f : α → α} :
    ∀ {l : List α}, (∀ a ∈ l, p a = true → R a (f a)) → Grows R l (setWhere p f l)
  | [], _ => .nil []
  | a :: l, h => by
    refine .cons ?_ (setWhere hR fun b hb => h b (List.mem_cons_of_mem _ hb))
    show R a (if p a then f a else a)
    split_ifs with hp
    · exact h a (by simp) hp
    · exact hR a

theorem trans (hR : ∀ a b c, R a b → R b c → R a c) {l l' l'' : List α} (h : Grows R l l') :
    Grows R l' l'' → Grows R l l'' := by
  induction h generalizing l'' with
  | nil new => intro _; exact .nil l''
  | cons hab _ ih =>
    rintro (_ | ⟨hbc, h'⟩)
    exact .cons (hR _ _ _ hab hbc) (ih h')

theorem exists_mem {l l' : List α} (h : Grows R l l') {a : α} (ha : a ∈ l) : ∃ b ∈ l', R a b := by
  induction h with
  | nil new => simp at ha
  | cons hab _ ih =>
    rcases List.mem_cons.mp ha with rfl | ha
    · exact ⟨_, by simp, hab⟩
    · obtain ⟨b, hb, hR⟩ := ih ha
      exact ⟨b, List.mem_cons_of_mem _ hb, hR⟩

/-- The first row with a property that `R` neither gives nor takes away stays the first. -/
theorem find? {q : α → Bool} (hq : ∀ a b, R a b → q b = q a) {l l' : List α} (h : Grows R l l')
    {a : α} (ha : l.find? q = some a) : ∃ b, l'.find? q = some b ∧ R a b := by
  induction h with
  | nil new => simp at ha
  | @cons c d l l' hcd _ ih =>
    rw [List.find?_cons] at ha
    rw [List.find?_cons, hq c d hcd]
    split at ha
    · obtain rfl := Option.some.inj ha
      exact ⟨d, rfl, hcd⟩
    · exact ih ha

theorem filter {q : α → Bool} (hq : ∀ a b, R a b → q b = q a) {l l' : List α}
    (h : Grows R l l') : Grows R (l.filter q) (l'.filter q) := by
  induction h with
  | nil new => exact .nil _
  | @cons c d l l' hcd _ ih =>
    rw [List.filter_cons, List.filter_cons, hq c d hcd]
    split_ifs
    · exact .cons hcd ih
    · exact ih

/-- Rows whose later versions all have the property are counted again. -/
theorem countP_le {q : α → Bool} (hq : ∀ a b, R a b → q a = true → q b = true) {l l' : List α}
    (h : Grows R l l') : l.countP q ≤ l'.countP q := by
  induction h with
  | nil new => exact Nat.zero_le _
  | @cons a b _ _ hab _ ih =>
    rw [List.countP_cons, List.countP_cons]
    have hb := hq a b hab
    split_ifs with h1 h2
    · omega
    · exact absurd (hb h1) h2
    · omega
    · omega

theorem sum_map_le {col : α → ℕ} (h : ∀ a b, R a b → col a ≤ col b) {l l' : List α}
    (hl : Grows R l l') : (l.map col).sum ≤ (l'.map col).sum := by
  induction hl with
  | nil new => exact Nat.zero_le _
  | @cons a b _ _ hab _ ih =>
    rw [List.map_cons, List.map_cons, List.sum_cons, List.sum_cons]
    exact Nat.add_le_add (h a b hab) ih

theorem imp_of_mem {R' : α → α → Prop} {l l' : List α} (h : Grows R l l') :
    (∀ a ∈ l, ∀ b ∈ l', R a b → R' a b) → Grows R' l l' := by
  induction h with
  | nil new => exact fun _ => .nil new
  | cons hab _ ih =>
    intro hR
    refine .cons (hR _ List.mem_cons_self _ List.mem_cons_self hab) (ih fun a ha b hb => ?_)
    exact hR a (List.mem_cons_of_mem _ ha) b (List.mem_cons_of_mem _ hb)

theorem length_le {l l' : List α} (h : Grows R l l') : l.length ≤ l'.length := by
  induction h with
  | nil new => exact Nat.zero_le _
  | cons _ _ ih => exact Nat.succ_le_succ ih

theorem map_grows {β : Type} {g : α → β} (hg : ∀ a b, R a b → g b = g a) {l l' : List α}
    (h : Grows R l l') : ∃ new, l'.map g = l.map g ++ new := by
  induction h with
  | nil new => exact ⟨new.map g, rfl⟩
  | cons hab _ ih =>
    obtain ⟨new, hnew⟩ := ih
    exact ⟨new, by rw [List.map_cons, List.map_cons, hg _ _ hab, hnew, List.cons_append]⟩

theorem forall₂ {l l' : List α} (h : Grows R l l') :
    l.length = l'.length → List.Forall₂ R l l' := by
  induction h with
  | nil new => intro hl; rw [List.length_eq_zero_iff.mp hl.symm]; exact .nil
  | cons hab _ ih => intro hl; exact .cons hab (ih (by simpa using hl))

end Grows

/-! ### Sums -/

section total

variable {sel sel' : α → Bool} {col : α → ℕ}

@[simp] theorem total_nil : total sel col [] = 0 := rfl

theorem total_cons (a : α) (l : List α) :
    total sel col (a :: l) = (if sel a then col a else 0) + total sel col l := by
  unfold total
  rw [List.filter_cons]
  split_ifs <;> simp

theorem total_append (l l' : List α) :
    total sel col (l ++ l') = total sel col l + total sel col l' := by
  simp [total]

theorem total_eq_zero {l : List α} (h : ∀ a ∈ l, sel a = false) : total sel col l = 0 := by
  unfold total
  rw [List.filter_eq_nil_iff.mpr fun a ha => by simp [h a ha]]
  rfl

/-- The sum only sees the rows of the group that the selection is in. -/
theorem total_filter {q : α → Bool} (hq : ∀ a, sel a = true → q a = true) (l : List α) :
    total sel col (l.filter q) = total sel col l := by
  unfold total
  rw [List.filter_filter]
  congr 2
  refine List.filter_congr fun a _ => ?_
  have := hq a
  cases hs : sel a <;> simp_all

theorem total_map {β : Type} (g : β → α) (l : List β) :
    total sel col (l.map g) = total (fun b => sel (g b)) (fun b => col (g b)) l := by
  unfold total
  rw [List.filter_map, List.map_map]
  rfl

theorem total_filter_ne_zero (l : List α) :
    total sel col (l.filter fun a => col a ≠ 0) = total sel col l := by
  induction l with
  | nil => rfl
  | cons a l ih =>
    rw [total_cons, List.filter_cons]
    by_cases h : col a = 0
    · rw [if_neg (by simp [h]), ih, h, ite_self, Nat.zero_add]
    · rw [if_pos (by simp [h]), total_cons, ih]

theorem total_add (col' : α → ℕ) (l : List α) :
    total sel (fun a => col a + col' a) l = total sel col l + total sel col' l := by
  induction l with
  | nil => rfl
  | cons a l ih =>
    rw [total_cons, total_cons, total_cons, ih]
    split_ifs <;> omega

theorem total_ite (l : List α) :
    total (fun _ => true) (fun a => if sel a = true then col a else 0) l = total sel col l := by
  induction l with
  | nil => rfl
  | cons a l ih => rw [total_cons, total_cons, ih, if_pos rfl]

theorem total_key [DecidableEq α] {a : α} : ∀ {l : List α}, l.Nodup → a ∈ l →
    total (fun b => b = a) col l = col a
  | [], _, ha => absurd ha List.not_mem_nil
  | b :: l, hl, ha => by
    obtain ⟨hb, hl⟩ := List.nodup_cons.mp hl
    rw [total_cons]
    by_cases h : b = a
    · subst h
      have hnone : total (fun c => c = b) col l = 0 := by
        refine total_eq_zero fun c hc => decide_eq_false fun he => hb (he ▸ hc)
      rw [if_pos (decide_eq_true rfl), hnone, Nat.add_zero]
    · have hmem : a ∈ l := (List.mem_cons.mp ha).resolve_left fun he => h he.symm
      rw [if_neg (by simp [h]), total_key hl hmem, Nat.zero_add]

theorem total_mono_of_mem : ∀ {l : List α}, (∀ a ∈ l, sel a = true → sel' a = true) →
    total sel col l ≤ total sel' col l
  | [], _ => Nat.le_refl _
  | a :: l, hsel => by
    have ih : total sel col l ≤ total sel' col l :=
      total_mono_of_mem fun b hb => hsel b (List.mem_cons_of_mem _ hb)
    have ha := hsel a (by simp)
    rw [total_cons, total_cons]
    split_ifs with h1 h2
    · omega
    · exact absurd (ha h1) h2
    · omega
    · omega

theorem total_mono (hsel : ∀ a, sel a = true → sel' a = true) (l : List α) :
    total sel col l ≤ total sel' col l :=
  total_mono_of_mem fun a _ => hsel a

variable {R : α → α → Prop}

/-- Rows that may leave the selection but not enter it: the sum falls. -/
theorem total_le_of_forall₂ (h : ∀ a b, R a b → sel b = true → sel a = true ∧ col b = col a)
    {l l' : List α} (hl : List.Forall₂ R l l') : total sel col l' ≤ total sel col l := by
  induction hl with
  | nil => simp
  | @cons a b _ _ hab _ ih =>
    rw [total_cons, total_cons]
    have hb := h a b hab
    split_ifs with h1 h2
    · rw [(hb h1).2]; exact Nat.add_le_add_left ih _
    · exact absurd (hb h1).1 h2
    · exact Nat.le_trans (by simpa using ih) (Nat.le_add_left _ _)
    · simpa using ih

/-- Rows that may enter the selection but not leave it: the sum rises. -/
theorem Grows.total_le (h : ∀ a b, R a b → sel a = true → sel b = true ∧ col b = col a)
    {l l' : List α} (hl : Grows R l l') : total sel col l ≤ total sel col l' := by
  induction hl with
  | nil new => simp
  | @cons a b _ _ hab _ ih =>
    rw [total_cons, total_cons]
    have hb := h a b hab
    split_ifs with h1 h2
    · rw [(hb h1).2]; exact Nat.add_le_add_left ih _
    · exact absurd (hb h1).1 h2
    · exact Nat.le_trans (by simpa using ih) (Nat.le_add_left _ _)
    · simpa using ih

/-- A row that only the larger selection has counts in the larger sum. -/
theorem total_add_le (hsel : ∀ a, sel a = true → sel' a = true) {a : α} (ha : sel a = false)
    (ha' : sel' a = true) :
    ∀ {l : List α}, a ∈ l → total sel col l + col a ≤ total sel' col l
  | [], hmem => by simp at hmem
  | b :: l, hmem => by
    have hle : total sel col l ≤ total sel' col l := total_mono hsel l
    rw [total_cons, total_cons]
    rcases List.mem_cons.mp hmem with rfl | hmem
    · rw [if_neg (by simp [ha]), if_pos ha']
      omega
    · have ih := total_add_le hsel ha ha' hmem
      have hb := hsel b
      split_ifs with h1 h2
      · omega
      · exact absurd (hb h1) h2
      · omega
      · omega

end total

/-! ### Updates -/

theorem mem_setWhere {p : α → Bool} {f : α → α} {l : List α} {b : α} :
    b ∈ setWhere p f l ↔ ∃ a ∈ l, (if p a then f a else a) = b := by
  simp [setWhere]

theorem map_setWhere {β : Type} {g : α → β} {p : α → Bool} {f : α → α} {l : List α}
    (h : ∀ a, g (f a) = g a) : (setWhere p f l).map g = l.map g := by
  unfold setWhere
  rw [List.map_map]
  refine List.map_congr_left fun a _ => ?_
  simp only [Function.comp_apply]
  split_ifs <;> simp [h]

theorem map_setWhere_view {β : Type} {view : α → β} {p : α → Bool} {q : β → Bool} {f : α → α}
    {g : β → β} {l : List α} (hq : ∀ a, q (view a) = p a)
    (hg : ∀ a ∈ l, p a = true → view (f a) = g (view a)) :
    (setWhere p f l).map view = setWhere q g (l.map view) := by
  unfold setWhere
  rw [List.map_map, List.map_map]
  refine List.map_congr_left fun a ha => ?_
  simp only [Function.comp_apply, hq]
  split_ifs with hp
  · exact hg a ha hp
  · rfl

theorem map_setWhere_of_mem {β : Type} {view : α → β} {p : α → Bool} {f : α → α} {l : List α}
    (h : ∀ a ∈ l, p a = true → view (f a) = view a) : (setWhere p f l).map view = l.map view := by
  unfold setWhere
  rw [List.map_map]
  refine List.map_congr_left fun a ha => ?_
  simp only [Function.comp_apply]
  split_ifs with hp
  · exact h a ha hp
  · rfl

theorem nodup_setWhere {β : Type} {g : α → β} {p : α → Bool} {f : α → α} {l : List α}
    (hn : (l.map g).Nodup) (h : ∀ a, g (f a) = g a) : ((setWhere p f l).map g).Nodup := by
  rw [map_setWhere h]
  exact hn

/-- The update of a row that has just been added, by a key that no other has. -/
theorem setWhere_append {β : Type} [DecidableEq β] {key : α → β} {k : β} {f : α → α} {l : List α}
    {a : α} (h : k ∉ l.map key) (ha : key a = k) :
    setWhere (fun b => key b = k) f (l ++ [a]) = l ++ [f a] := by
  have hold : setWhere (fun b => key b = k) f l = l := by
    refine (List.map_congr_left fun b hb => ?_).trans (List.map_id _)
    have hne : key b ≠ k := fun he => h (List.mem_map.mpr ⟨b, hb, he⟩)
    simp [hne]
  unfold setWhere at hold ⊢
  rw [List.map_append, hold]
  simp [ha]

/-- Looking for a row by a property that the update does not change. -/
theorem find?_setWhere {p q : α → Bool} {f : α → α} (hf : ∀ a, q (f a) = q a) (l : List α) :
    (setWhere p f l).find? q = (l.find? q).map fun a => if p a then f a else a := by
  unfold setWhere
  rw [List.find?_map]
  congr 2
  funext a
  simp only [Function.comp_apply]
  split_ifs <;> simp [hf]

theorem filter_setWhere {p q : α → Bool} {f : α → α} (hf : ∀ a, q (f a) = q a) (l : List α) :
    (setWhere p f l).filter q = setWhere p f (l.filter q) := by
  unfold setWhere
  rw [List.filter_map]
  congr 2
  funext a
  simp only [Function.comp_apply]
  split_ifs <;> simp [hf]

/-! ### Rows with unique keys -/

section keys

variable {key : α → κ}

theorem eq_of_key {l : List α} (hn : (l.map key).Nodup) {a b : α} (ha : a ∈ l) (hb : b ∈ l)
    (h : key a = key b) : a = b :=
  List.inj_on_of_nodup_map hn ha hb h

variable [DecidableEq κ]

theorem length_filter_key {l : List α} (hn : (l.map key).Nodup) (k : κ) :
    (l.filter fun a => key a = k).length ≤ 1 := by
  have hcount : (l.map key).count k = (l.filter fun a => key a = k).length := by
    rw [List.count, List.countP_map, List.countP_eq_length_filter]
    rfl
  rw [← hcount]
  exact List.nodup_iff_count_le_one.mp hn k

theorem find?_key_of_mem {l : List α} (hn : (l.map key).Nodup) {a : α} (ha : a ∈ l) :
    l.find? (fun b => key b = key a) = some a := by
  cases hf : l.find? (fun b => key b = key a) with
  | none =>
    have := List.find?_eq_none.mp hf a ha
    simp at this
  | some b =>
    have hb := List.find?_some hf
    rw [eq_of_key hn (List.mem_of_find?_eq_some hf) ha (by simpa using hb)]

theorem find?_key {l : List α} {k : κ} {a : α} (h : l.find? (fun b => key b = k) = some a) :
    a ∈ l ∧ key a = k :=
  ⟨List.mem_of_find?_eq_some h, by simpa using List.find?_some h⟩

variable (key)

theorem find?_append_key {l : List α} {k : κ} {a : α} (h : l.find? (fun b => key b = k) = none)
    (ha : key a = k) (k' : κ) : (l ++ [a]).find? (fun b => key b = k') =
      if k' = k then some a else l.find? fun b => key b = k' := by
  rw [List.find?_append]
  by_cases he : k' = k
  · subst he
    simp [h, ha]
  · simp [he, ha, Ne.symm he]

theorem find?_setWhere_key {l : List α} {k : κ} {a : α} {f : α → α}
    (h : l.find? (fun b => key b = k) = some a) (hf : ∀ b, key (f b) = key b) (k' : κ) :
    (setWhere (fun b => key b = k) f l).find? (fun b => key b = k') =
      if k' = k then some (f a) else l.find? fun b => key b = k' := by
  rw [find?_setWhere fun b => by rw [hf]]
  by_cases he : k' = k
  · subst he
    simp [h, (find?_key h).2]
  · rw [if_neg he]
    cases hb : l.find? fun b => key b = k' with
    | none => rfl
    | some b => simp [(find?_key hb).2, he]

end keys

/-! ### Lists of pairs -/

section pairs

variable {α β : Type} [BEq α] [LawfulBEq α] {l l' : List (α × β)}

theorem lookup_iff_mem (hn : (l.map (·.1)).Nodup) {k : α} {v : β} :
    l.lookup k = some v ↔ (k, v) ∈ l := by
  induction l with
  | nil => simp
  | cons x l ih =>
    obtain ⟨k', v'⟩ := x
    obtain ⟨hnot, hn⟩ := List.nodup_cons.mp hn
    by_cases hk : k = k'
    · subst hk
      have hother : (k, v) ∉ l := fun h => hnot (List.mem_map_of_mem (f := (·.1)) h)
      simp [hother, eq_comm]
    · have hbeq : (k == k') = false := beq_false_of_ne hk
      simp [List.lookup_cons, hbeq, hk, ih hn]

theorem lookup_perm (h : l.Perm l') (hn : (l.map (·.1)).Nodup) (k : α) :
    l.lookup k = l'.lookup k := by
  refine Option.ext fun v => ?_
  rw [lookup_iff_mem hn, lookup_iff_mem ((h.map _).nodup_iff.mp hn)]
  exact h.mem_iff

end pairs

/-! ### Counting -/

/-- Rows with different keys, each with one of the rows of another table. -/
theorem countP_le_of_key {β : Type} {l : List α} {l' : List β} (key : α → κ) (key' : β → κ)
    {p : α → Bool} {q : β → Bool} (hn : (l.map key).Nodup)
    (h : ∀ a ∈ l, p a = true → ∃ b ∈ l', q b = true ∧ key' b = key a) :
    l.countP p ≤ l'.countP q := by
  have hsub : (l.filter p).map key ⊆ (l'.filter q).map key' := by
    intro k hk
    obtain ⟨a, ha, rfl⟩ := List.mem_map.mp hk
    obtain ⟨hmem, hp⟩ := List.mem_filter.mp ha
    obtain ⟨b, hb, hq, he⟩ := h a hmem hp
    exact List.mem_map.mpr ⟨b, List.mem_filter.mpr ⟨hb, hq⟩, he⟩
  have hnodup : ((l.filter p).map key).Nodup := hn.sublist ((l.filter_sublist).map key)
  have hle := (List.subperm_of_subset hnodup hsub).length_le
  rwa [List.length_map, List.length_map, ← List.countP_eq_length_filter,
    ← List.countP_eq_length_filter] at hle

theorem countP_or {p q : α → Bool} (h : ∀ a, p a = true → q a = false) (l : List α) :
    l.countP (fun a => p a || q a) = l.countP p + l.countP q := by
  induction l with
  | nil => rfl
  | cons a l ih =>
    rw [List.countP_cons, List.countP_cons, List.countP_cons, ih]
    have ha := h a
    cases hp : p a with
    | false =>
      rw [Bool.false_or, if_neg Bool.false_ne_true]
      omega
    | true =>
      rw [ha hp, Bool.true_or, if_pos rfl, if_neg Bool.false_ne_true]
      omega

end Payflow.Lib
