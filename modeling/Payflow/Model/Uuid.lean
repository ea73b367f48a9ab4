import Payflow.Lib.Hex

/-! # UUIDs

A UUID is a number, which Python writes in lower case with hyphens. PostgreSQL reads more than that.
The bound of 128 bits is left out, so that there is always a new one. -/

namespace Payflow.Model

open Payflow.Lib

structure Uuid where
  value : ℕ
  deriving DecidableEq, Repr

/-- How many digits stand before the first hyphen: eight, if there are no more than 128 bits. -/
def Uuid.leading (u : Uuid) : ℕ := max 8 (hexWidth (u.value / 16 ^ 24))

/-- `str(id)`. -/
def Uuid.text (u : Uuid) : String :=
  String.ofList (hexDigits u.leading (u.value / 16 ^ 24) ++ '-' :: (hexDigits 4 (u.value / 16 ^ 20) ++
    '-' :: (hexDigits 4 (u.value / 16 ^ 16) ++ '-' :: (hexDigits 4 (u.value / 16 ^ 12) ++
      '-' :: hexDigits 12 u.value))))

/-- A hyphen is passed over. -/
def skipHyphen (l : List Char) : List Char := if l.head? = some '-' then l.tail else l

/-- Groups of four digits; a hyphen may stand after each of them but the last. -/
def readGroups : ℕ → ℕ → List Char → Option (ℕ × List Char)
  | 0, n, l => some (n, l)
  | k + 1, n, l => (readHex 4 n l).bind fun x =>
    readGroups k x.1 (if k = 0 then x.2 else skipHyphen x.2)

/-- `uuid_in` of PostgreSQL, which takes digits of either case, with or without hyphens and with or
without braces around them. -/
def uuidIn (s : String) : Option Uuid :=
  let braces := s.toList.head? = some '\x7b'
  (readGroups 8 0 (if braces then s.toList.tail else s.toList)).bind fun x =>
    if x.2 = (if braces then ['\x7d'] else []) then some ⟨x.1⟩ else none

example : uuidIn "\x7b550E8400E29B41D4A716446655440000\x7d" =
    uuidIn "550e8400-e29b-41d4-a716-446655440000" := by decide +kernel

/-! ### A text is read back -/

/-- The digits of a text. -/
def digitsOf (l : List Char) : List Char := l.filter fun c => c ≠ '-'

theorem digitsOf_hexDigits (k n : ℕ) : digitsOf (hexDigits k n) = hexDigits k n := by
  have hdigit : ∀ c ∈ hexDigits k n, decide (c ≠ '-') = true := fun c hc =>
    decide_eq_true (ne_of_mem_hexDigits (by decide) hc)
  exact List.filter_eq_self.mpr hdigit

theorem digitsOf_text (u : Uuid) :
    digitsOf u.text.toList = hexDigits (u.leading + 24) u.value := by
  have hlead : hexDigits (u.leading + 24) u.value = _ := hexDigits_add u.leading 24 u.value
  have hlow : hexDigits 24 u.value = hexDigits 12 (u.value / 16 ^ 12) ++ hexDigits 12 u.value :=
    hexDigits_add 12 12 u.value
  have hmiddle : ∀ n, hexDigits 12 n =
      hexDigits 4 (n / 16 ^ 8) ++ (hexDigits 4 (n / 16 ^ 4) ++ hexDigits 4 n) := fun n => by
    rw [hexDigits_add 4 8 n, hexDigits_add 4 4 n]
  have hhyphen : ∀ l, digitsOf ('-' :: l) = digitsOf l := fun l => rfl
  have happend : ∀ l m, digitsOf (l ++ m) = digitsOf l ++ digitsOf m := fun l m =>
    List.filter_append l m
  rw [hlead, hlow, hmiddle (u.value / 16 ^ 12), Nat.div_div_eq_div_mul, Nat.div_div_eq_div_mul,
    Uuid.text, String.toList_ofList]
  simp only [happend, hhyphen, digitsOf_hexDigits, List.append_assoc]
  norm_num

theorem Uuid.value_lt (u : Uuid) : u.value < 16 ^ (u.leading + 24) := by
  have hwidth := lt_hexWidth (u.value / 16 ^ 24)
  have hle : 16 ^ hexWidth (u.value / 16 ^ 24) ≤ 16 ^ u.leading :=
    Nat.pow_le_pow_right (by omega) (Nat.le_max_right _ _)
  rw [Nat.pow_add]
  exact (Nat.div_lt_iff_lt_mul (by norm_num)).mp (Nat.lt_of_lt_of_le hwidth hle)

/-- The UUID of a text, as Python reads it; that there are 32 digits is not asked for. -/
def Uuid.ofText (s : String) : Option Uuid :=
  let digits := digitsOf s.toList
  (readHex digits.length 0 digits).map fun x => ⟨x.1⟩

theorem Uuid.ofText_text (u : Uuid) : Uuid.ofText u.text = some u := by
  have hread := readHex_append [] (u.leading + 24) 0 u.value
  rw [List.append_nil, Nat.zero_mul, Nat.zero_add, Nat.mod_eq_of_lt u.value_lt] at hread
  unfold Uuid.ofText
  simp only [digitsOf_text, length_hexDigits, hread, Option.map_some]

theorem Uuid.text_inj {u v : Uuid} (h : u.text = v.text) : u = v :=
  Option.some.inj (by rw [← Uuid.ofText_text u, h, Uuid.ofText_text v])

theorem digitsOf_skipHyphen (l : List Char) : digitsOf (skipHyphen l) = digitsOf l := by
  unfold skipHyphen
  split_ifs with h
  · obtain ⟨l', rfl⟩ := List.head?_eq_some_iff.mp h
    rfl
  · rfl

theorem readHex_digitsOf (i : ℕ) : ∀ {k n m : ℕ} {l rest : List Char},
    readHex k n l = some (m, rest) → readHex (k + i) n (digitsOf l) = readHex i m (digitsOf rest)
  | 0, n, m, l, rest, h => by
    obtain ⟨rfl, rfl⟩ := Prod.mk.inj (Option.some.inj h)
    rw [Nat.zero_add]
  | k + 1, n, m, c :: l, rest, h => by
    obtain ⟨d, hd, h⟩ := Option.bind_eq_some_iff.mp h
    have hc : c ≠ '-' := by
      rintro rfl
      cases hd
    have hcons : digitsOf (c :: l) = c :: digitsOf l := List.filter_cons_of_pos (by simp [hc])
    rw [hcons, Nat.succ_add, readHex, hd]
    exact readHex_digitsOf i h

theorem readGroups_digitsOf (i : ℕ) : ∀ {k n m : ℕ} {l rest : List Char},
    readGroups k n l = some (m, rest) →
      readHex (4 * k + i) n (digitsOf l) = readHex i m (digitsOf rest)
  | 0, n, m, l, rest, h => by
    obtain ⟨rfl, rfl⟩ := Prod.mk.inj (Option.some.inj h)
    rw [Nat.mul_zero, Nat.zero_add]
  | k + 1, n, m, l, rest, h => by
    obtain ⟨x, hx, h⟩ := Option.bind_eq_some_iff.mp h
    have ih := readGroups_digitsOf i h
    have hskip : digitsOf (if k = 0 then x.2 else skipHyphen x.2) = digitsOf x.2 := by
      split_ifs
      · rfl
      · exact digitsOf_skipHyphen _
    rw [show 4 * (k + 1) + i = 4 + (4 * k + i) by omega, readHex_digitsOf _ hx, ← hskip, ih]

/-- **PostgreSQL reads a text as the UUID that it is the text of.** -/
theorem uuidIn_text {u v : Uuid} (h : uuidIn u.text = some v) : v = u := by
  have hwidth : 8 ≤ u.leading := Nat.le_max_left _ _
  have hbrace : ¬ u.text.toList.head? = some '\x7b' := by
    obtain ⟨k, hk⟩ : ∃ k, u.leading = k + 1 := Nat.exists_eq_add_of_le' (by omega)
    have hmem : Nat.digitChar (u.value / 16 ^ 24 / 16 ^ k % 16) ∈
        hexDigits (k + 1) (u.value / 16 ^ 24) := List.mem_cons_self
    rw [Uuid.text, String.toList_ofList, hk]
    exact fun he => ne_of_mem_hexDigits (by decide) hmem (Option.some.inj he)
  unfold uuidIn at h
  simp only [hbrace, if_false] at h
  obtain ⟨⟨m, rest⟩, hread, h⟩ := Option.bind_eq_some_iff.mp h
  split_ifs at h with hrest
  obtain rfl := Option.some.inj h
  obtain rfl : rest = [] := hrest
  have hall := readGroups_digitsOf 0 hread
  -- all digits have been read, so there are no more than 32
  obtain ⟨j, hj⟩ : ∃ j, u.leading + 24 = 32 + j := Nat.exists_eq_add_of_le (by omega)
  rw [digitsOf_text, hj, hexDigits_add, readHex_append] at hall
  obtain ⟨hm, hnil⟩ := Prod.mk.inj (Option.some.inj hall)
  obtain rfl : j = 0 := by
    rw [← length_hexDigits j u.value, hnil]
    rfl
  have hlt := u.value_lt
  rw [hj] at hlt
  have hvalue : m = u.value := by
    rw [← hm, Nat.zero_mul, Nat.zero_add, Nat.pow_zero, Nat.div_one]
    exact Nat.mod_eq_of_lt hlt
  rw [hvalue]

end Payflow.Model
