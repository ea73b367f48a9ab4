import Payflow.Lib.PrefixCode
import Payflow.Model.Api
import Payflow.Model.JsonLoads
import Mathlib.Tactic.IntervalCases

/-! # What is hashed

The text that `generate_request_hash` hashes determines the user, the amount and the currency: what
`json.dumps` writes for a text can be read back (`loadsChar`), so that texts with quotes,
backslashes or any other character never run into each other. -/

namespace Payflow.Spec

open Payflow.Lib Payflow.Model

theorem hexValue_digitChar {d : ℕ} (hd : d < 16) : hexValue (Nat.digitChar d) = d := by
  interval_cases d <;> decide

theorem hexNumber_digits {n : ℕ} (hn : n < 65536) :
    hexNumber (Nat.digitChar (n / 4096 % 16)) (Nat.digitChar (n / 256 % 16))
      (Nat.digitChar (n / 16 % 16)) (Nat.digitChar (n % 16)) = n := by
  unfold hexNumber
  rw [hexValue_digitChar (Nat.mod_lt _ (by omega)), hexValue_digitChar (Nat.mod_lt _ (by omega)),
    hexValue_digitChar (Nat.mod_lt _ (by omega)), hexValue_digitChar (Nat.mod_lt _ (by omega))]
  omega

theorem unicodeEscape_eq (n : ℕ) : unicodeEscape n =
    ['\\', 'u', Nat.digitChar (n / 4096 % 16), Nat.digitChar (n / 256 % 16),
      Nat.digitChar (n / 16 % 16), Nat.digitChar (n % 16)] := by
  simp [unicodeEscape, List.range, List.range.loop]

theorem toNat_valid (c : Char) : c.toNat < 55296 ∨ 57343 < c.toNat ∧ c.toNat < 1114112 := by
  have h := c.valid
  simpa [UInt32.isValidChar, Nat.isValidChar] using h

theorem loadsChar_unicodeEscape {n : ℕ} (hn : n < 65536) (rest : List Char) :
    loadsChar (unicodeEscape n ++ rest) =
      if 55296 ≤ n ∧ n < 57344 then loadsLow n rest else some (Char.ofNat n, rest) := by
  have hnumber := hexNumber_digits hn
  rw [unicodeEscape_eq]
  simp only [List.cons_append, List.nil_append, loadsChar, loadsEscape, loadsUnicode,
    if_true, hnumber]

theorem loadsLow_unicodeEscape {high low : ℕ} (hlow : low < 65536) (rest : List Char) :
    loadsLow high (unicodeEscape low ++ rest) =
      some (Char.ofNat (65536 + (high - 55296) * 1024 + (low - 56320)), rest) := by
  have hnumber := hexNumber_digits hlow
  rw [unicodeEscape_eq]
  simp only [List.cons_append, List.nil_append, loadsLow, hnumber]

theorem loadsChar_basic {c : Char} (hc : c.toNat < 65536) (rest : List Char) :
    loadsChar (unicodeEscape c.toNat ++ rest) = some (c, rest) := by
  have hvalid := toNat_valid c
  rw [loadsChar_unicodeEscape hc, if_neg (by omega), Char.ofNat_toNat]

theorem loadsChar_pair {c : Char} (hc : 65536 ≤ c.toNat) (rest : List Char) :
    loadsChar (unicodeEscape (55296 + (c.toNat - 65536) / 1024) ++
      unicodeEscape (56320 + (c.toNat - 65536) % 1024) ++ rest) = some (c, rest) := by
  have hvalid := toNat_valid c
  have hhigh : 55296 + (c.toNat - 65536) / 1024 < 56320 := by omega
  have hlow : 56320 + (c.toNat - 65536) % 1024 < 57344 := by omega
  have hsum : 65536 + (55296 + (c.toNat - 65536) / 1024 - 55296) * 1024 +
      (56320 + (c.toNat - 65536) % 1024 - 56320) = c.toNat := by omega
  rw [List.append_assoc, loadsChar_unicodeEscape (by omega), if_pos (by omega),
    loadsLow_unicodeEscape (by omega), hsum, Char.ofNat_toNat]

/-- **A character in JSON is read back.** -/
theorem loadsChar_dumpsChar : Reads loadsChar dumpsChar := by
  intro c rest
  unfold dumpsChar
  split_ifs with h₁ h₂ h₃ h₄ h₅ h₆ h₇ h₈ h₉
  · subst h₁; rfl
  · subst h₂; rfl
  · subst h₃; rfl
  · subst h₄; rfl
  · subst h₅; rfl
  · subst h₆; rfl
  · subst h₇; rfl
  · exact if_neg h₂
  · exact loadsChar_basic h₉ rest
  · exact loadsChar_pair (by omega) rest

theorem dumpsChar_head (c : Char) (rest : List Char) :
    (dumpsChar c ++ rest).head? ≠ some '"' := by
  unfold dumpsChar
  split_ifs with h₁ h₂ h₃ h₄ h₅ h₆ h₇ h₈ h₉ <;> simp [unicodeEscape, *]

theorem dumpsStr_inj {s t : String} {r r' : List Char} (h : dumpsStr s ++ r = dumpsStr t ++ r') :
    s = t ∧ r = r' := by
  have h : s.toList.flatMap dumpsChar ++ ['"'] ++ r = t.toList.flatMap dumpsChar ++ ['"'] ++ r' :=
    (List.cons.inj h).2
  rw [List.append_assoc, List.append_assoc] at h
  obtain ⟨hl, hr⟩ := loadsChar_dumpsChar.flatMap_inj dumpsChar_head h
  exact ⟨String.toList_inj.mp hl, hr⟩

theorem toList_toString_nat (n : ℕ) : (toString (n : ℤ)).toList = Nat.toDigits 10 n := by
  show (Nat.repr n).toList = _
  exact Nat.toList_repr

theorem toList_toString_int : ∀ a : ℤ, (toString a).toList =
    match a with
    | .ofNat n => Nat.toDigits 10 n
    | .negSucc n => '-' :: Nat.toDigits 10 (n + 1)
  | .ofNat n => toList_toString_nat n
  | .negSucc n => by
    show ("-" ++ Nat.repr (n + 1)).toList = _
    rw [String.toList_append, Nat.toList_repr]
    rfl

theorem comma_not_mem_toString (a : ℤ) : ',' ∉ (toString a).toList := by
  rw [toList_toString_int]
  cases a with
  | ofNat n => exact not_mem_digits (by decide) n
  | negSucc n =>
    intro hmem
    rcases List.mem_cons.mp hmem with he | hmem
    · exact absurd he (by decide)
    · exact not_mem_digits (by decide) _ hmem

theorem toList_toString_inj {a a' : ℤ} (h : (toString a).toList = (toString a').toList) :
    a = a' := by
  -- a sign is no digit
  have hsign : ∀ {m n : ℕ}, Nat.toDigits 10 m ≠ '-' :: Nat.toDigits 10 n := by
    intro m n he
    have hminus : '-' ∉ Nat.toDigits 10 m := not_mem_digits (by decide) m
    exact hminus (by simp [he])
  rw [toList_toString_int, toList_toString_int] at h
  cases a with
  | ofNat m =>
    cases a' with
    | ofNat n => exact congrArg Int.ofNat (toDigits_inj h)
    | negSucc n => exact absurd h hsign
  | negSucc m =>
    cases a' with
    | ofNat n => exact absurd h.symm hsign
    | negSucc n => rw [Nat.succ.inj (toDigits_inj (List.cons.inj h).2)]

/-- **The hashed text determines the request.** -/
theorem canonicalRequest_inj {u u' c c' : String} {a a' : ℤ}
    (h : canonicalRequest u a c = canonicalRequest u' a' c') : u = u' ∧ a = a' ∧ c = c' := by
  have h := String.ofList_inj.mp h
  simp only [List.append_assoc] at h
  obtain ⟨hdigits, h⟩ := append_stop_inj (comma_not_mem_toString a) (comma_not_mem_toString a')
    (List.append_cancel_left h)
  have hcurrency : "\"currency\":".toList ++ (dumpsStr c ++ _) =
      "\"currency\":".toList ++ (dumpsStr c' ++ _) := h
  obtain ⟨hc, huser⟩ := dumpsStr_inj (List.append_cancel_left hcurrency)
  obtain ⟨hu, -⟩ := dumpsStr_inj (List.append_cancel_left huser)
  exact ⟨hu, toList_toString_inj hdigits, hc⟩

/-- What `generate_request_hash` builds before it hashes, for any integer. -/
def canonicalRequestOf (P : Platform) (userId : String) (amountCents : ℤ) (currency : String) :
    String :=
  canonicalRequest userId amountCents (P.upper currency)

theorem generateRequestHash_eq (P : Platform) (userId : String) (amountCents : ℕ)
    (currency : String) : generateRequestHash P userId amountCents currency =
      P.sha256Hex (canonicalRequestOf P userId amountCents currency) :=
  rfl

/-- **Two calls build the same text if and only if they are for the same request**, but for the
letter case of the currency. -/
theorem canonicalRequestOf_eq_iff (P : Platform) (u u' c c' : String) (a a' : ℤ) :
    canonicalRequestOf P u a c = canonicalRequestOf P u' a' c' ↔
      u = u' ∧ a = a' ∧ P.upper c = P.upper c' := by
  refine ⟨canonicalRequest_inj, ?_⟩
  rintro ⟨rfl, rfl, hc⟩
  unfold canonicalRequestOf
  rw [hc]

/-- Requests with the same hash are the same, as long as the hash has no collisions. -/
theorem generateRequestHash_inj {P : Platform} (hsha : Function.Injective P.sha256Hex)
    {u u' c c' : String} {a a' : ℕ}
    (h : generateRequestHash P u a c = generateRequestHash P u' a' c') :
    u = u' ∧ a = a' ∧ P.upper c = P.upper c' := by
  obtain ⟨hu, ha, hc⟩ := canonicalRequest_inj (hsha h)
  exact ⟨hu, Int.ofNat.inj ha, hc⟩

end Payflow.Spec
