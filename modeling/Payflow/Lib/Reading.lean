import Payflow.Lib.PrefixCode
import Mathlib.Data.List.TakeWhile

/-! # Readers

Readers of lists of letters, put together from readers of their parts: a fixed word, letters of one
kind, a number, items up to a letter, items with a separator. Each of them reads back what was
written in that form. -/

namespace Payflow.Lib

variable {α β : Type}

/-! ### Words and letters of one kind -/

/-- The word, which stands for `a`. -/
def readWord [DecidableEq β] (w : List β) (a : α) (l : List β) : Option (α × List β) :=
  if w <+: l then some (a, l.drop w.length) else none

theorem readWord_append [DecidableEq β] (w rest : List β) (a : α) :
    readWord w a (w ++ rest) = some (a, rest) := by
  unfold readWord
  rw [if_pos (List.prefix_append w rest), List.drop_left]

/-- The list does not begin with a letter of the kind. -/
def Past (p : β → Bool) (l : List β) : Prop := ∀ c, l.head? = some c → p c = false

theorem past_cons {p : β → Bool} {c : β} {l : List β} (h : p c = false) : Past p (c :: l) := by
  intro c' hc'
  obtain rfl := Option.some.inj hc'
  exact h

theorem takeWhile_of_past {p : β → Bool} {l : List β} (h : Past p l) : l.takeWhile p = [] := by
  cases l with
  | nil => rfl
  | cons c l => exact List.takeWhile_cons_of_neg (by simp [h c rfl])

theorem dropWhile_of_past {p : β → Bool} {l : List β} (h : Past p l) : l.dropWhile p = l := by
  cases l with
  | nil => rfl
  | cons c l => exact List.dropWhile_cons_of_neg (by simp [h c rfl])

theorem takeWhile_append {p : β → Bool} {w rest : List β} (hw : ∀ c ∈ w, p c = true)
    (hrest : Past p rest) : (w ++ rest).takeWhile p = w := by
  rw [List.takeWhile_append_of_pos hw, takeWhile_of_past hrest, List.append_nil]

theorem dropWhile_append {p : β → Bool} {w rest : List β} (hw : ∀ c ∈ w, p c = true)
    (hrest : Past p rest) : (w ++ rest).dropWhile p = rest := by
  rw [List.dropWhile_append_of_pos hw, dropWhile_of_past hrest]

/-! ### Numbers -/

/-- The number of some digits. -/
def numberOf (l : List Char) : ℕ := Nat.ofDigitChars 10 l 0

theorem numberOf_toDigits (n : ℕ) : numberOf (Nat.toDigits 10 n) = n := Nat.ofDigitChars_ten_toDigits

theorem numberOf_zeros (k : ℕ) (l : List Char) :
    numberOf (List.replicate k '0' ++ l) = numberOf l := by
  unfold numberOf
  rw [Nat.ofDigitChars_append, Nat.ofDigitChars_replicate_zero, Nat.mul_zero]

/-- The digits at the head. -/
def readNumber (l : List Char) : ℕ × List Char :=
  (numberOf (l.takeWhile Char.isDigit), l.dropWhile Char.isDigit)

theorem readNumber_append {w rest : List Char} (hw : ∀ c ∈ w, c.isDigit = true)
    (hrest : Past Char.isDigit rest) : readNumber (w ++ rest) = (numberOf w, rest) := by
  unfold readNumber
  rw [takeWhile_append hw hrest, dropWhile_append hw hrest]

theorem isDigit_toDigits {n : ℕ} : ∀ c ∈ Nat.toDigits 10 n, c.isDigit = true :=
  fun _ hc => Nat.isDigit_of_mem_toDigits (by omega) (by omega) hc

/-! ### Sequences -/

/-- Items with a separator between them. -/
def sepBy (enc : α → List β) (sep : β) : List α → List β
  | [] => []
  | [a] => enc a
  | a :: b :: l => enc a ++ sep :: sepBy enc sep (b :: l)

theorem length_sepBy_le (enc : α → List β) (sep : β) : ∀ l : List α, l.length ≤ (sepBy enc sep l).length + 1
  | [] => by simp
  | [a] => by simp
  | a :: b :: l => by
    have ih := length_sepBy_le enc sep (b :: l)
    simp only [sepBy, List.length_append, List.length_cons] at ih ⊢
    omega

theorem length_le_sepBy (enc : α → List β) (sep : β) {a : α} : ∀ {l : List α}, a ∈ l →
    (enc a).length ≤ (sepBy enc sep l).length
  | [b], h => by
    obtain rfl := List.mem_singleton.mp h
    exact Nat.le_refl _
  | b :: c :: l, h => by
    simp only [sepBy, List.length_append, List.length_cons]
    rcases List.mem_cons.mp h with rfl | h
    · omega
    · have ih := length_le_sepBy enc sep h
      omega

theorem length_le_flatMap {enc : α → List β} : ∀ {l : List α}, (∀ a ∈ l, enc a ≠ []) →
    l.length ≤ (l.flatMap enc).length
  | [], _ => Nat.le_refl _
  | a :: l, h => by
    have ih := length_le_flatMap fun b hb => h b (List.mem_cons_of_mem _ hb)
    have hpos := List.length_pos_iff.mpr (h a List.mem_cons_self)
    rw [List.flatMap_cons, List.length_append, List.length_cons]
    omega

section sequences

variable [DecidableEq β] (read : List β → Option (α × List β)) (sep stop : β)

/-- Items up to a letter; the letter is taken, too. -/
def readUntil : ℕ → List β → Option (List α × List β)
  | 0, _ => none
  | n + 1, l =>
    if l.head? = some stop then some ([], l.tail)
    else (read l).bind fun x => (readUntil n x.2).map fun y => (x.1 :: y.1, y.2)

/-- Items, at least one, with a separator between them, up to a letter; the letter is taken, too. -/
def readSep : ℕ → List β → Option (List α × List β)
  | 0, _ => none
  | n + 1, l => (read l).bind fun x =>
    if x.2.head? = some stop then some ([x.1], x.2.tail)
    else if x.2.head? = some sep then (readSep n x.2.tail).map fun y => (x.1 :: y.1, y.2)
    else none

variable {read sep stop} {enc : α → List β}

theorem readUntil_flatMap {rest : List β} : ∀ {l : List α} {n : ℕ},
    (∀ a ∈ l, ∀ rest, read (enc a ++ rest) = some (a, rest)) →
    (∀ a ∈ l, ∀ rest, (enc a ++ rest).head? ≠ some stop) → l.length < n →
    readUntil read stop n (l.flatMap enc ++ stop :: rest) = some (l, rest)
  | [], n + 1, _, _, _ => by simp [readUntil]
  | a :: l, n + 1, hread, hstop, hn => by
    have ih : readUntil read stop n (l.flatMap enc ++ stop :: rest) = some (l, rest) :=
      readUntil_flatMap (fun b hb => hread b (List.mem_cons_of_mem _ hb))
        (fun b hb => hstop b (List.mem_cons_of_mem _ hb)) (by simpa using hn)
    rw [List.flatMap_cons, List.append_assoc, readUntil,
      if_neg (hstop a List.mem_cons_self _), hread a List.mem_cons_self]
    simp only [Option.bind_some, ih, Option.map_some]

theorem readSep_sepBy (hne : sep ≠ stop) {rest : List β} : ∀ {l : List α} {n : ℕ}, l ≠ [] →
    (∀ a ∈ l, ∀ c rest, c = sep ∨ c = stop → read (enc a ++ c :: rest) = some (a, c :: rest)) →
    l.length ≤ n → readSep read sep stop n (sepBy enc sep l ++ stop :: rest) = some (l, rest)
  | [a], n + 1, _, hread, _ => by
    rw [sepBy, readSep, hread a List.mem_cons_self _ _ (Or.inr rfl)]
    simp
  | a :: b :: l, n + 1, _, hread, hn => by
    have ih : readSep read sep stop n (sepBy enc sep (b :: l) ++ stop :: rest) =
        some (b :: l, rest) :=
      readSep_sepBy hne (by simp) (fun d hd => hread d (List.mem_cons_of_mem _ hd))
        (by simpa using hn)
    rw [sepBy, List.append_assoc, List.cons_append, readSep,
      hread a List.mem_cons_self _ _ (Or.inl rfl)]
    simp only [Option.bind_some, List.head?_cons, List.tail_cons]
    rw [if_neg (by simpa using hne), if_pos trivial, ih]
    rfl

end sequences

end Payflow.Lib
