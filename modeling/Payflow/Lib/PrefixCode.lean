import Mathlib.Tactic.Common

/-! # Texts that can be read back

An encoder whose result a reader finds at the head of any list (`Reads`) can be told from what
follows it; so can a sequence of encoded items that ends with a letter no item begins with. -/

namespace Payflow.Lib

variable {α β : Type}

/-- The reader takes an encoded item off the head of a list. -/
def Reads (read : List β → Option (α × List β)) (enc : α → List β) : Prop :=
  ∀ a rest, read (enc a ++ rest) = some (a, rest)

namespace Reads

variable {read : List β → Option (α × List β)} {enc : α → List β}

theorem append_inj (h : Reads read enc) {a b : α} {r s : List β} (he : enc a ++ r = enc b ++ s) :
    a = b ∧ r = s := by
  have hread := h a r
  rw [he, h b s] at hread
  obtain ⟨hb, hs⟩ := Prod.mk.inj (Option.some.inj hread)
  exact ⟨hb.symm, hs.symm⟩

theorem flatMap_inj (h : Reads read enc) {stop : β}
    (hstop : ∀ a rest, (enc a ++ rest).head? ≠ some stop) :
    ∀ {l m : List α} {r s : List β}, l.flatMap enc ++ stop :: r = m.flatMap enc ++ stop :: s →
      l = m ∧ r = s
  | [], [], r, s, he => ⟨rfl, (List.cons.inj he).2⟩
  | [], b :: m, r, s, he => by
    rw [List.flatMap_cons, List.append_assoc] at he
    exact absurd (congrArg List.head? he).symm (hstop b _)
  | a :: l, [], r, s, he => by
    rw [List.flatMap_cons, List.append_assoc] at he
    exact absurd (congrArg List.head? he) (hstop a _)
  | a :: l, b :: m, r, s, he => by
    rw [List.flatMap_cons, List.append_assoc, List.flatMap_cons, List.append_assoc] at he
    obtain ⟨hab, hrest⟩ := h.append_inj he
    obtain ⟨hlm, hrs⟩ := flatMap_inj h hstop hrest
    exact ⟨by rw [hab, hlm], hrs⟩

end Reads

theorem append_stop_inj {stop : β} : ∀ {l m r s : List β}, stop ∉ l → stop ∉ m →
    l ++ stop :: r = m ++ stop :: s → l = m ∧ r = s
  | [], [], r, s, _, _, he => ⟨rfl, (List.cons.inj he).2⟩
  | [], b :: m, r, s, _, hm, he => absurd (List.cons.inj he).1 fun h => hm (by simp [h])
  | a :: l, [], r, s, hl, _, he => absurd (List.cons.inj he).1 fun h => hl (by simp [h])
  | a :: l, b :: m, r, s, hl, hm, he => by
    obtain ⟨hab, hrest⟩ := List.cons.inj he
    obtain ⟨hlm, hrs⟩ := append_stop_inj (fun h => hl (List.mem_cons_of_mem _ h))
      (fun h => hm (List.mem_cons_of_mem _ h)) hrest
    exact ⟨by rw [hab, hlm], hrs⟩

theorem not_mem_digits {stop : Char} (h : stop.isDigit = false) (n : ℕ) :
    stop ∉ Nat.toDigits 10 n := by
  intro hmem
  rw [Nat.isDigit_of_mem_toDigits (by omega) (by omega) hmem] at h
  exact absurd h (by decide)

theorem toDigits_inj {m n : ℕ} (h : Nat.toDigits 10 m = Nat.toDigits 10 n) : m = n := by
  calc
    m = Nat.ofDigitChars 10 (Nat.toDigits 10 m) 0 := Nat.ofDigitChars_ten_toDigits.symm
    _ = Nat.ofDigitChars 10 (Nat.toDigits 10 n) 0 := by rw [h]
    _ = n := Nat.ofDigitChars_ten_toDigits

end Payflow.Lib
