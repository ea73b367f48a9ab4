import Mathlib.Data.List.MinMax
import Mathlib.Data.List.Sort
import Mathlib.Order.Lattice.Nat

/-! # Batches of the oldest

Items are worked off in batches: a round looks at the `size` oldest items that are left. The items
that are decided leave, the others are among the oldest again in the next round. Items of the same
age may be taken in any order.

`reached` is the number of the first items of a list that have been looked at after some rounds, if
they are taken in the order of the list. The worst order of items of the same age is that in which
those that are never decided come first: what is reached in that order is done after any rounds
(`Rounds.all_done`), and no rounds in the order of a list get further (`Rounds.mem_take`). -/

namespace Payflow.Lib

variable {α κ : Type}

/-! ### Counting -/

theorem countP_split (p q : α → Bool) (l : List α) :
    l.countP p = l.countP (fun a => p a && q a) + l.countP fun a => p a && !q a := by
  induction l with
  | nil => rfl
  | cons a l ih =>
    simp only [List.countP_cons, ih]
    cases p a <;> cases q a <;> simp <;> omega

theorem countP_add_le {p q r : α → Bool} {l : List α} (hp : ∀ a ∈ l, p a = true → r a = true)
    (hq : ∀ a ∈ l, q a = true → r a = true ∧ p a = false) :
    l.countP p + l.countP q ≤ l.countP r := by
  have hsplit := countP_split r p l
  have hle : l.countP p ≤ l.countP fun a => r a && p a := by
    refine List.countP_mono_left fun a ha h => ?_
    rw [hp a ha h, h]
    rfl
  have hle' : l.countP q ≤ l.countP fun a => r a && !p a := by
    refine List.countP_mono_left fun a ha h => ?_
    obtain ⟨hr, hnot⟩ := hq a ha h
    rw [hr, hnot]
    rfl
  omega

/-- What is left when the first ones are taken away, by a key that tells them apart. -/
theorem length_filter_not_mem_take [DecidableEq κ] (key : α → κ) {l : List α}
    (hn : (l.map key).Nodup) (k : ℕ) :
    (l.filter fun a => key a ∉ (l.take k).map key).length = l.length - k := by
  have hsplit := List.take_append_drop k l
  have hn' : ((l.take k).map key ++ (l.drop k).map key).Nodup := by
    rwa [← List.map_append, hsplit]
  have htaken : (l.take k).filter (fun a => key a ∉ (l.take k).map key) = [] := by
    refine List.filter_eq_nil_iff.mpr fun a ha => ?_
    have hmem : key a ∈ (l.take k).map key := List.mem_map_of_mem ha
    simpa using hmem
  have hleft : (l.drop k).filter (fun a => key a ∉ (l.take k).map key) = l.drop k := by
    refine List.filter_eq_self.mpr fun a ha => decide_eq_true fun hmem => ?_
    exact List.disjoint_of_nodup_append hn' hmem (List.mem_map_of_mem ha)
  have hall : l.filter (fun a => key a ∉ (l.take k).map key) = l.drop k := by
    conv_lhs => rw [← hsplit]
    rw [List.filter_append, hsplit, htaken, hleft, List.nil_append]
  rw [hall, List.length_drop]

/-! ### The rounds -/

section rounds

variable (size : ℕ) (older : α → α → Prop) (decided : α → Bool) (l : List α)

/-- The number of the first items that have been looked at after `k` rounds in the order of the
list. -/
def reached : ℕ → ℕ
  | 0 => 0
  | k + 1 => reached k + (size - ((l.take (reached k)).filter fun a => !decided a).length)

/-- A batch: items that are not done, none of them without those that are older, and as many as
there may be. -/
structure Batch (done batch : α → Bool) : Prop where
  waits : ∀ a ∈ l, batch a = true → done a = false
  oldest : ∀ a ∈ l, ∀ b ∈ l, batch a = true → done b = false → older b a → batch b = true
  le_size : l.countP batch ≤ size
  full : (∀ a ∈ l, done a = false → batch a = true) ∨ l.countP batch = size

/-- What may be done after `k` rounds. -/
inductive Rounds : ℕ → (α → Bool) → Prop
  | zero : Rounds 0 fun _ => false
  | succ {k done batch} : Rounds k done → Batch size older l done batch →
    Rounds (k + 1) fun a => done a || (batch a && decided a)

variable {size older decided l} {k : ℕ} {done batch : α → Bool}

theorem Rounds.done_decided (h : Rounds size older decided l k done) {a : α} (ha : done a = true) :
    decided a = true := by
  induction h with
  | zero => cases ha
  | succ _ _ ih =>
    rcases (Bool.or_eq_true _ _).mp ha with ha | ha
    · exact ih ha
    · exact ((Bool.and_eq_true _ _).mp ha).2

theorem countP_take_add (decided : α → Bool) {l : List α} {j : ℕ} (hj : j ≤ l.length) :
    (l.take j).countP decided + (l.take j).countP (fun a => !decided a) = j := by
  have hsplit : (l.take j).countP (fun _ => true) =
      (l.take j).countP decided + (l.take j).countP fun a => !decided a :=
    countP_split (fun _ => true) decided (l.take j)
  rw [← hsplit, List.countP_true, List.length_take_of_le hj]

theorem reached_succ (k : ℕ) : reached size decided l (k + 1) = reached size decided l k +
    (size - (l.take (reached size decided l k)).countP fun a => !decided a) := by
  rw [List.countP_eq_length_filter]
  rfl

/-! ### The first of what is sorted -/

theorem mem_take_of_not_rel {R : α → α → Prop} {E : List α} (hE : E.Pairwise R) {n : ℕ} {a b : α}
    (ha : a ∈ E.take n) (hb : b ∈ E) (hab : ¬ R a b) : b ∈ E.take n := by
  rw [← List.take_append_drop n E] at hE hb
  refine (List.mem_append.mp hb).resolve_right fun hdrop => ?_
  exact hab ((List.pairwise_append.mp hE).2.2 a ha b hdrop)

/-- **The first items of a sorted list are a batch**, also where newer items come behind the old
ones. -/
theorem batch_of_take {R : α → α → Prop} {E : List α} (hE : E.Pairwise R)
    (holder : ∀ a ∈ l, ∀ b ∈ l, older b a → ¬ R a b) (hn : l.Nodup) (hEn : E.Nodup)
    (hwaits : ∀ a ∈ l, a ∈ E ↔ done a = false) (hnewer : ∀ a ∈ l, ∀ b ∈ E, b ∉ l → ¬ R b a)
    (hbatch : ∀ a ∈ l, batch a = true ↔ a ∈ E.take size) : Batch size older l done batch := by
  have hcount : l.countP batch = (l.filter batch).length := List.countP_eq_length_filter
  have htaken : l.filter batch ⊆ E.take size := fun a ha => by
    obtain ⟨hmem, hab⟩ := List.mem_filter.mp ha
    exact (hbatch a hmem).mp hab
  refine ⟨fun a ha hab => ?_, fun a ha b hb hab hbd hold => ?_, ?_, ?_⟩
  · exact (hwaits a ha).mp (List.mem_of_mem_take ((hbatch a ha).mp hab))
  · exact (hbatch b hb).mpr (mem_take_of_not_rel hE ((hbatch a ha).mp hab) ((hwaits b hb).mpr hbd)
      (holder a ha b hb hold))
  · have hle := ((hn.filter batch).subperm htaken).length_le
    rw [List.length_take] at hle
    omega
  · by_cases hnew : ∃ b ∈ E.take size, b ∉ l
    · obtain ⟨b, hb, hbl⟩ := hnew
      refine Or.inl fun a ha hd => (hbatch a ha).mpr ?_
      exact mem_take_of_not_rel hE hb ((hwaits a ha).mpr hd)
        (hnewer a ha b (List.mem_of_mem_take hb) hbl)
    · push Not at hnew
      rcases Nat.le_total E.length size with hle | hle
      · refine Or.inl fun a ha hd => (hbatch a ha).mpr ?_
        rw [List.take_of_length_le hle]
        exact (hwaits a ha).mpr hd
      · have hback : E.take size ⊆ l.filter batch := fun a ha =>
          List.mem_filter.mpr ⟨hnew a ha, (hbatch a (hnew a ha)).mpr ha⟩
        have hle' := (((List.take_sublist _ _).nodup hEn).subperm hback).length_le
        have hle'' := ((hn.filter batch).subperm htaken).length_le
        rw [List.length_take_of_le hle] at hle' hle''
        exact Or.inr (by omega)

/-! ### Rounds in the order of the list -/

/-- **A batch in the order of the list** goes no further than to what is reached. -/
theorem Batch.mem_take (hb : Batch size older l done batch) (hold : l.Pairwise older) (hn : l.Nodup)
    {r : ℕ} (hdone : ∀ a ∈ l, done a = true → decided a = true ∧ a ∈ l.take r) {a : α} (ha : a ∈ l)
    (hbatch : batch a = true) :
    a ∈ l.take (r + (size - (l.take r).countP fun a => !decided a)) := by
  by_contra hnot
  generalize hc : (l.take r).countP (fun a => !decided a) = c at hnot
  have hsplit := List.take_append_drop (r + (size - c)) l
  have hdrop : a ∈ l.drop (r + (size - c)) := by
    rw [← hsplit] at ha
    exact (List.mem_append.mp ha).resolve_left hnot
  have hlen : r + (size - c) < l.length := by
    have hpos := List.length_pos_of_mem hdrop
    rw [List.length_drop] at hpos
    omega
  rw [← hsplit] at hold
  have hbefore := (List.pairwise_append.mp hold).2.2
  -- what waits before the item is in the batch, too
  have hfirst : ∀ b ∈ l.take (r + (size - c)), done b = false → batch b = true := fun b hmem hb' =>
    hb.oldest a ha b (List.mem_of_mem_take hmem) hbatch hb' (hbefore b hmem a hdrop)
  have hundecided : c ≤ (l.take r).countP batch := by
    rw [← hc]
    refine List.countP_mono_left fun b hmem hb' => ?_
    refine hfirst b ((List.take_subset_take_left l (Nat.le_add_right _ _)) hmem) ?_
    cases hd : done b with
    | false => rfl
    | true =>
      rw [(hdone b (List.mem_of_mem_take hmem) hd).1] at hb'
      cases hb'
  have hnext : ((l.drop r).take (size - c)).countP batch = size - c := by
    have hall : ∀ b ∈ (l.drop r).take (size - c), batch b = true := by
      intro b hmem
      refine hfirst b ?_ ?_
      · rw [List.take_add]
        exact List.mem_append_right _ hmem
      · cases hd : done b with
        | false => rfl
        | true =>
          have hmem := List.mem_of_mem_take hmem
          have htake := (hdone b (List.mem_of_mem_drop hmem) hd).2
          exact absurd hmem (List.disjoint_take_drop hn (Nat.le_refl r) htake)
    rw [List.countP_eq_length.mpr hall, List.length_take, List.length_drop]
    omega
  have hlast : 0 < (l.drop (r + (size - c))).countP batch :=
    List.countP_pos_iff.mpr ⟨a, hdrop, hbatch⟩
  have hcount : l.countP batch = (l.take r).countP batch +
      ((l.drop r).take (size - c)).countP batch + (l.drop (r + (size - c))).countP batch := by
    conv_lhs => rw [← hsplit, List.take_add]
    rw [List.countP_append, List.countP_append]
  have hle := hb.le_size
  omega

/-- **Rounds in the order of the list** do nothing beyond what is reached. -/
theorem Rounds.mem_take (h : Rounds size older decided l k done) (hold : l.Pairwise older)
    (hn : l.Nodup) : ∀ a ∈ l, done a = true → a ∈ l.take (reached size decided l k) := by
  induction h with
  | zero => exact fun a _ ha => by cases ha
  | @succ k done batch h hb ih =>
    intro a ha hd
    rw [reached_succ]
    rcases (Bool.or_eq_true _ _).mp hd with hd | hd
    · exact (List.take_subset_take_left l (Nat.le_add_right _ _)) (ih a ha hd)
    · exact hb.mem_take hold hn (fun b hb' hd' => ⟨h.done_decided hd', ih b hb' hd'⟩) ha
        ((Bool.and_eq_true _ _).mp hd).1

end rounds

/-! ### The worst order -/

section worst

variable {time : α → ℕ} {size : ℕ} {decided : α → Bool} {l : List α} {k : ℕ} {done batch : α → Bool}

/-- Oldest first, and among those of the same age first those that are never decided. -/
abbrev UndecidedFirst (time : α → ℕ) (decided : α → Bool) (a b : α) : Prop :=
  time a < time b ∨ time a = time b ∧ (decided a = true → decided b = true)

/-- At least as much is done as in the order of the list. -/
def KeepsUp (time : α → ℕ) (decided : α → Bool) (l : List α) (r : ℕ) (done : α → Bool) : Prop :=
  ∀ j ≤ r, ∀ u, (∀ a ∈ l.take j, time a ≤ u) →
    (l.take j).countP decided ≤ l.countP fun a => done a && decide (time a ≤ u)

theorem countP_done_le (u : ℕ) : l.countP (fun a => done a && decide (time a ≤ u)) ≤
    l.countP fun a => (done a || (batch a && decided a)) && decide (time a ≤ u) := by
  refine List.countP_mono_left fun a _ ha => ?_
  obtain ⟨hd, hu⟩ := (Bool.and_eq_true _ _).mp ha
  rw [hd, hu]
  rfl

/-- The undecided items of an age or older stand before a decided one of that age. -/
theorem countP_undecided_le (hsorted : l.Pairwise (UndecidedFirst time decided)) {j : ℕ}
    (hj : j < l.length) (hd : decided l[j] = true) :
    l.countP (fun a => !decided a && decide (time a ≤ time l[j])) ≤
      (l.take (j + 1)).countP fun a => !decided a := by
  have hsplit := List.take_append_drop (j + 1) l
  have hbehind : (l.drop (j + 1)).countP
      (fun a => !decided a && decide (time a ≤ time l[j])) = 0 := by
    refine List.countP_eq_zero.mpr fun b hb hcond => ?_
    obtain ⟨hnot, hle⟩ := (Bool.and_eq_true _ _).mp hcond
    rw [← hsplit] at hsorted
    have hmem : l[j] ∈ l.take (j + 1) :=
      List.mem_take_iff_getElem.mpr ⟨j, by omega, rfl⟩
    rcases (List.pairwise_append.mp hsorted).2.2 _ hmem b hb with hlt | ⟨-, himp⟩
    · exact absurd (of_decide_eq_true hle) (by omega)
    · rw [himp hd] at hnot
      cases hnot
  have hcount : ∀ p : α → Bool,
      l.countP p = (l.take (j + 1)).countP p + (l.drop (j + 1)).countP p := fun p => by
    rw [← List.countP_append, hsplit]
  rw [hcount, hbehind, Nat.add_zero]
  exact List.countP_mono_left fun a _ ha => ((Bool.and_eq_true _ _).mp ha).1

theorem Batch.countP_take_le (hb : Batch size (fun b a => time b < time a) l done batch)
    (hsorted : l.Pairwise (UndecidedFirst time decided)) {r : ℕ}
    (hr : KeepsUp time decided l r done) {j : ℕ} (hrj : r ≤ j)
    (hjr : j < r + (size - (l.take r).countP fun a => !decided a)) (hj : j < l.length)
    (hd : decided l[j] = true) : (l.take (j + 1)).countP decided ≤
      l.countP fun a => (done a || (batch a && decided a)) && decide (time a ≤ time l[j]) := by
  have htimes : ∀ a ∈ l.take (j + 1), time a ≤ time l[j] := by
    intro a ha
    obtain ⟨i, hi, rfl⟩ := List.mem_iff_getElem.mp ha
    rw [List.getElem_take]
    have hij : i ≤ j := by
      rw [List.length_take] at hi
      omega
    rcases Nat.lt_or_eq_of_le hij with hlt | rfl
    · rcases List.pairwise_iff_getElem.mp hsorted i j (by omega) hj hlt with h | ⟨h, -⟩ <;> omega
    · exact Nat.le_refl _
  by_cases hall : ∀ a ∈ l, done a = false → time a ≤ time l[j] → batch a = true
  · -- everything of that age has been in a batch
    have htaken : (l.take (j + 1)).countP decided ≤
        (l.take (j + 1)).countP fun a => decided a && decide (time a ≤ time l[j]) := by
      refine List.countP_mono_left fun a ha hd => ?_
      rw [hd, decide_eq_true (htimes a ha)]
      rfl
    refine htaken.trans (((List.take_sublist _ _).countP_le).trans ?_)
    refine List.countP_mono_left fun a ha hcond => ?_
    obtain ⟨hda, hle⟩ := (Bool.and_eq_true _ _).mp hcond
    rw [hda, hle]
    cases hdone : done a with
    | true => rfl
    | false =>
      rw [hall a ha hdone (of_decide_eq_true hle)]
      rfl
  · push Not at hall
    obtain ⟨b, hbl, hbd, hbt, hnot⟩ := hall
    -- so the whole batch is of that age or older
    have hold : ∀ a ∈ l, batch a = true → time a ≤ time l[j] := by
      intro a ha hab
      by_contra hlt
      exact hnot (hb.oldest a ha b hbl hab hbd (by omega))
    have hfull : l.countP batch = size :=
      hb.full.resolve_left fun hevery => hnot (hevery b hbl hbd)
    have hsplit := countP_split batch decided l
    have hundecided : l.countP (fun a => batch a && !decided a) ≤
        l.countP fun a => !decided a && decide (time a ≤ time l[j]) := by
      refine List.countP_mono_left fun a ha hcond => ?_
      obtain ⟨hab, hda⟩ := (Bool.and_eq_true _ _).mp hcond
      rw [hda, decide_eq_true (hold a ha hab)]
      rfl
    have hbefore := countP_undecided_le hsorted hj hd
    have hdone : (l.take r).countP decided ≤
        l.countP fun a => done a && decide (time a ≤ time l[j]) :=
      hr r (Nat.le_refl r) _ fun a ha =>
        htimes a ((List.take_subset_take_left l (by omega)) ha)
    have hsum : l.countP (fun a => done a && decide (time a ≤ time l[j])) +
        l.countP (fun a => batch a && decided a) ≤
          l.countP fun a => (done a || (batch a && decided a)) && decide (time a ≤ time l[j]) := by
      refine countP_add_le (fun a _ hcond => ?_) fun a ha hcond => ?_
      · obtain ⟨hda, hle⟩ := (Bool.and_eq_true _ _).mp hcond
        rw [hda, hle]
        rfl
      · obtain ⟨hab, hda⟩ := (Bool.and_eq_true _ _).mp hcond
        rw [hb.waits a ha hab, hab, hda, decide_eq_true (hold a ha hab)]
        exact ⟨rfl, rfl⟩
    have htotal : (l.take (j + 1)).countP decided +
        (l.take (j + 1)).countP (fun a => !decided a) = j + 1 := countP_take_add decided hj
    have htotal' := countP_take_add decided (Nat.le_of_lt (Nat.lt_of_le_of_lt hrj hj))
    omega

/-- **A batch** keeps up with the worst order. -/
theorem Batch.keepsUp (hb : Batch size (fun b a => time b < time a) l done batch)
    (hsorted : l.Pairwise (UndecidedFirst time decided)) {r : ℕ}
    (hr : KeepsUp time decided l r done) :
    KeepsUp time decided l (r + (size - (l.take r).countP fun a => !decided a))
      fun a => done a || (batch a && decided a) := by
  intro j
  induction j with
  | zero => exact fun _ u _ => by simp
  | succ j ih =>
    intro hj u hu
    rcases Nat.lt_or_ge j r with hlt | hge
    · exact (hr (j + 1) hlt u hu).trans (countP_done_le u)
    rcases Nat.lt_or_ge j l.length with hjl | hjl
    · have hlast : l[j] ∈ l.take (j + 1) := List.mem_take_iff_getElem.mpr ⟨j, by omega, rfl⟩
      cases hd : decided l[j] with
      | true =>
        refine (hb.countP_take_le hsorted hr hge hj hjl hd).trans ?_
        refine List.countP_mono_left fun a _ hcond => ?_
        obtain ⟨hdone, hle⟩ := (Bool.and_eq_true _ _).mp hcond
        have hle' := (of_decide_eq_true hle).trans (hu _ hlast)
        exact (Bool.and_eq_true _ _).mpr ⟨hdone, decide_eq_true hle'⟩
      | false =>
        have hsame : (l.take (j + 1)).countP decided = (l.take j).countP decided := by
          rw [List.take_add_one, List.getElem?_eq_getElem hjl, List.countP_append,
            Option.toList_some, List.countP_singleton, hd]
          rfl
        rw [hsame]
        exact ih (by omega) u fun a ha => hu a ((List.take_subset_take_left l (by omega)) ha)
    · have hsame : l.take (j + 1) = l.take j := by
        rw [List.take_of_length_le hjl, List.take_of_length_le (by omega)]
      rw [hsame] at hu ⊢
      exact ih (by omega) u hu

/-- **Any rounds** keep up with the worst order. -/
theorem Rounds.keepsUp (h : Rounds size (fun b a => time b < time a) decided l k done)
    (hsorted : l.Pairwise (UndecidedFirst time decided)) :
    KeepsUp time decided l (reached size decided l k) done := by
  induction h with
  | zero =>
    intro j hj u _
    obtain rfl : j = 0 := Nat.le_zero.mp hj
    simp
  | succ h hb ih =>
    rw [reached_succ]
    exact hb.keepsUp hsorted ih

/-- **What is reached in the worst order is done** after any rounds. -/
theorem Rounds.all_done (h : Rounds size (fun b a => time b < time a) decided l k done)
    (hsorted : l.Pairwise (UndecidedFirst time decided))
    (hreach : ∀ (i : ℕ) a, l[i]? = some a → decided a = true → i < reached size decided l k) :
    ∀ a ∈ l, decided a = true → done a = true := by
  obtain ⟨u, hu⟩ : ∃ u, ∀ a ∈ l, time a ≤ u :=
    ⟨(l.map time).foldr max ⊥, fun a ha => List.le_max_of_le (List.mem_map_of_mem ha) le_rfl⟩
  have hkeeps := h.keepsUp hsorted _ (Nat.le_refl _) u fun a ha => hu a (List.mem_of_mem_take ha)
  have hrest : (l.drop (reached size decided l k)).countP decided = 0 := by
    refine List.countP_eq_zero.mpr fun a ha hd => ?_
    obtain ⟨i, hi⟩ := List.mem_iff_getElem?.mp ha
    rw [List.getElem?_drop] at hi
    have hlt := hreach _ a hi hd
    omega
  have hall : l.countP decided ≤ l.countP fun a => decided a && done a := by
    have hsplit := List.take_append_drop (reached size decided l k) l
    have hcount : l.countP decided = (l.take (reached size decided l k)).countP decided := by
      conv_lhs => rw [← hsplit]
      rw [List.countP_append, hrest, Nat.add_zero]
    rw [hcount]
    refine hkeeps.trans (List.countP_mono_left fun a _ hcond => ?_)
    obtain ⟨hdone, -⟩ := (Bool.and_eq_true _ _).mp hcond
    rw [hdone, h.done_decided hdone]
    rfl
  have hsplit := countP_split decided done l
  have hzero : l.countP (fun a => decided a && !done a) = 0 := by omega
  intro a ha hd
  have hnone := List.countP_eq_zero.mp hzero a ha
  rw [hd] at hnone
  simpa using hnone

end worst

end Payflow.Lib
