import Mathlib.Tactic.IntervalCases

/-! # Hexadecimal digits

Numbers in digits of a fixed width, and a reader that takes digits of either case off the head of a
list. -/

namespace Payflow.Lib

/-- The last `k` hexadecimal digits of a number. -/
def hexDigits : ℕ → ℕ → List Char
  | 0, _ => []
  | k + 1, n => Nat.digitChar (n / 16 ^ k % 16) :: hexDigits k n

/-- The value of a digit. -/
def hexDigit? (c : Char) : Option ℕ :=
  if '0' ≤ c ∧ c ≤ '9' then some (c.toNat - 48)
  else if 'a' ≤ c ∧ c ≤ 'f' then some (c.toNat - 87)
  else if 'A' ≤ c ∧ c ≤ 'F' then some (c.toNat - 55)
  else none

/-- Read `k` digits that follow those of `n`. -/
def readHex : ℕ → ℕ → List Char → Option (ℕ × List Char)
  | 0, n, l => some (n, l)
  | _ + 1, _, [] => none
  | k + 1, n, c :: l => (hexDigit? c).bind fun d => readHex k (n * 16 + d) l

theorem hexDigit?_digitChar {d : ℕ} (hd : d < 16) : hexDigit? (Nat.digitChar d) = some d := by
  interval_cases d <;> decide

theorem readHex_append (rest : List Char) : ∀ k m n : ℕ,
    readHex k m (hexDigits k n ++ rest) = some (m * 16 ^ k + n % 16 ^ k, rest)
  | 0, m, n => by simp [readHex, hexDigits, Nat.mod_one]
  | k + 1, m, n => by
    have hdigit := hexDigit?_digitChar (Nat.mod_lt (n / 16 ^ k) (by omega : 0 < 16))
    have hmod : n % 16 ^ (k + 1) = n % 16 ^ k + 16 ^ k * (n / 16 ^ k % 16) := Nat.mod_pow_succ
    have hpow : m * 16 ^ (k + 1) = m * 16 * 16 ^ k := by rw [Nat.pow_succ', Nat.mul_assoc]
    have hsum : (m * 16 + n / 16 ^ k % 16) * 16 ^ k + n % 16 ^ k =
        m * 16 ^ (k + 1) + n % 16 ^ (k + 1) := by
      rw [hmod, hpow, Nat.add_mul, Nat.mul_comm (16 ^ k)]
      omega
    rw [hexDigits, List.cons_append, readHex, hdigit, Option.bind_some, readHex_append rest k, hsum]

theorem hexDigits_add (j k n : ℕ) :
    hexDigits (j + k) n = hexDigits j (n / 16 ^ k) ++ hexDigits k n := by
  induction j with
  | zero => rw [Nat.zero_add]; rfl
  | succ j ih =>
    have hdiv : n / 16 ^ (j + k) = n / 16 ^ k / 16 ^ j := by
      rw [Nat.div_div_eq_div_mul, ← Nat.pow_add, Nat.add_comm k]
    rw [Nat.succ_add, hexDigits, hexDigits, ih, hdiv, List.cons_append]

theorem length_hexDigits (k n : ℕ) : (hexDigits k n).length = k := by
  induction k with
  | zero => rfl
  | succ k ih => rw [hexDigits, List.length_cons, ih]

theorem ne_of_mem_hexDigits {x : Char} (hx : hexDigit? x = none) {k n : ℕ} {c : Char}
    (hc : c ∈ hexDigits k n) : c ≠ x := by
  induction k with
  | zero => cases hc
  | succ k ih =>
    rcases List.mem_cons.mp hc with rfl | hc
    · rintro rfl
      rw [hexDigit?_digitChar (Nat.mod_lt _ (by omega))] at hx
      cases hx
    · exact ih hc

/-- As many digits as a number has. -/
def hexWidth (n : ℕ) : ℕ := n.log2 / 4 + 1

theorem lt_hexWidth (n : ℕ) : n < 16 ^ hexWidth n := by
  have hpow : 16 ^ hexWidth n = 2 ^ (4 * hexWidth n) := by
    rw [Nat.pow_mul]
  have hle : n.log2 + 1 ≤ 4 * hexWidth n := by
    unfold hexWidth
    omega
  rw [hpow]
  exact Nat.lt_of_lt_of_le Nat.lt_log2_self (Nat.pow_le_pow_right (by omega) hle)

end Payflow.Lib
