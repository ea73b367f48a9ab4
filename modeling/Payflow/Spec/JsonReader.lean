import Payflow.Model.Publisher
import Payflow.Spec.Canonical

/-! # What is written in JSON is read back

`loads` gives back every value that `json.dumps` has written, and `loadsBytes` what the provider's
webhook carries. -/

namespace Payflow.Spec

open Payflow.Lib Payflow.Model

/-- The text of a number that is no integer. -/
def isFloatText (t : String) : Bool :=
  t.toList.all isNumberLetter && t.toList.any fun c => !isIntegerLetter c

mutual

/-- The numbers of the value that are no integers are written as JSON writes them. -/
def legible : Json → Bool
  | .float t => isFloatText t
  | .arr l => legibleItems l
  | .obj l => legibleFields l
  | _ => true

/-- `legible` of the items of a list. -/
def legibleItems : List Json → Bool
  | [] => true
  | v :: l => legible v && legibleItems l

/-- `legible` of the values of a dict. -/
def legibleFields : List (String × Json) → Bool
  | [] => true
  | (_, v) :: l => legible v && legibleFields l

end

theorem legible_of_mem : ∀ {l : List Json} {v : Json}, legibleItems l = true → v ∈ l →
    legible v = true
  | w :: l, v, h, hv => by
    obtain ⟨hw, hl⟩ := (Bool.and_eq_true _ _).mp h
    rcases List.mem_cons.mp hv with rfl | hv
    · exact hw
    · exact legible_of_mem hl hv

theorem legible_of_mem_fields : ∀ {l : List (String × Json)} {x : String × Json},
    legibleFields l = true → x ∈ l → legible x.2 = true
  | (_, w) :: l, x, h, hx => by
    obtain ⟨hw, hl⟩ := (Bool.and_eq_true _ _).mp h
    rcases List.mem_cons.mp hx with rfl | hx
    · exact hw
    · exact legible_of_mem_fields hl hx

/-- A field as it is written. -/
def dumpsField (x : String × Json) : List Char := dumpsStr x.1 ++ ':' :: x.2.dumps

theorem dumpsItems_eq : ∀ l : List Json, Json.dumpsItems l = sepBy Json.dumps ',' l
  | [] => rfl
  | [_] => rfl
  | v :: w :: l => congrArg (fun rest => v.dumps ++ ',' :: rest) (dumpsItems_eq (w :: l))

theorem dumpsFields_eq : ∀ l : List (String × Json),
    Json.dumpsFields l = sepBy dumpsField ',' l
  | [] => rfl
  | [_] => rfl
  | x :: y :: l => congrArg (fun rest => dumpsField x ++ ',' :: rest) (dumpsFields_eq (y :: l))

theorem loadsStr_dumpsStr (s : String) (rest : List Char) :
    loadsStr (dumpsStr s ++ rest) = some (s, rest) := by
  have hchars : s.toList.length ≤ (s.toList.flatMap dumpsChar).length := by
    refine length_le_flatMap fun c _ hc => ?_
    have hread := loadsChar_dumpsChar c []
    rw [hc] at hread
    cases hread
  have hhead : (dumpsStr s ++ rest).head? = some '"' := rfl
  have htail : (dumpsStr s ++ rest).tail = s.toList.flatMap dumpsChar ++ '"' :: rest := by
    simp [dumpsStr]
  unfold loadsStr
  rw [if_pos hhead, htail, readUntil_flatMap (fun c _ => loadsChar_dumpsChar c)
    (fun c _ => dumpsChar_head c)]
  · rw [Option.map_some, String.ofList_toList]
  · simp only [dumpsStr, List.length_append, List.length_cons]
    omega

theorem loadsField_dumpsField {read : List Char → Option (Json × List Char)} {x : String × Json}
    {rest : List Char} (h : read (x.2.dumps ++ rest) = some (x.2, rest)) :
    loadsField read (dumpsField x ++ rest) = some (x, rest) := by
  unfold loadsField dumpsField
  rw [List.append_assoc, loadsStr_dumpsStr]
  simp only [Option.bind_some, List.cons_append, List.head?_cons, List.tail_cons, if_true, h]
  rfl

/-! ### Numbers -/

theorem loadsInt_toString (n : ℤ) : loadsInt (toString n).toList = n := by
  rw [toList_toString_int]
  unfold loadsInt
  cases n with
  | ofNat n =>
    have hminus : ¬ ((Nat.toDigits 10 n).head? = some '-') := fun h =>
      not_mem_digits (by decide) n (List.mem_of_mem_head? h)
    simp only
    rw [if_neg hminus, numberOf_toDigits]
    rfl
  | negSucc n =>
    simp only [List.head?_cons, List.tail_cons, if_true]
    rw [numberOf_toDigits]
    rfl

theorem integerLetters (n : ℤ) : ∀ c ∈ (toString n).toList, isIntegerLetter c = true := by
  have hdigits : ∀ m, ∀ c ∈ Nat.toDigits 10 m, isIntegerLetter c = true := fun m c hc => by
    simp [isIntegerLetter, isDigit_toDigits c hc]
  rw [toList_toString_int]
  cases n with
  | ofNat n => exact hdigits n
  | negSucc n =>
    intro c hc
    rcases List.mem_cons.mp hc with rfl | hc
    · rfl
    · exact hdigits _ c hc

theorem isNumberLetter_of_integer {c : Char} (h : isIntegerLetter c = true) :
    isNumberLetter c = true := by
  unfold isIntegerLetter at h
  unfold isNumberLetter
  rcases (Bool.or_eq_true _ _).mp h with h | h
  · rw [h]
    rfl
  · rw [of_decide_eq_true h]
    rfl

theorem toString_ne_nil (n : ℤ) : (toString n).toList ≠ [] := by
  rw [toList_toString_int]
  cases n with
  | ofNat n => exact List.ne_nil_of_length_pos Nat.length_toDigits_pos
  | negSucc n => exact List.cons_ne_nil _ _

theorem loadsNumber_append {w rest : List Char} (hw : ∀ c ∈ w, isNumberLetter c = true)
    (hne : w ≠ []) (hrest : Past isNumberLetter rest) : loadsNumber (w ++ rest) =
      some (if w.all isIntegerLetter then .int (loadsInt w) else .float (String.ofList w), rest) := by
  unfold loadsNumber
  rw [takeWhile_append hw hrest, dropWhile_append hw hrest]
  exact if_neg hne

theorem loads_number {w rest : List Char} (hw : ∀ c ∈ w, isNumberLetter c = true) (hne : w ≠ [])
    (n : ℕ) : loads (n + 1) (w ++ rest) = loadsNumber (w ++ rest) := by
  obtain ⟨c, w, rfl⟩ := List.exists_cons_of_ne_nil hne
  have hc := hw c List.mem_cons_self
  have hother : ∀ d, isNumberLetter d = false → ¬ ((c :: w ++ rest).head? = some d) := by
    intro d hd he
    obtain rfl := Option.some.inj he
    rw [hc] at hd
    cases hd
  rw [loads, if_neg (hother _ rfl), if_neg (hother _ rfl), if_neg (hother _ rfl),
    if_neg (hother _ rfl), if_neg (hother _ rfl), if_neg (hother _ rfl)]

theorem loads_int (n : ℕ) (i : ℤ) {rest : List Char} (hrest : Past isNumberLetter rest) :
    loads (n + 1) ((Json.int i).dumps ++ rest) = some (.int i, rest) := by
  have hletters := integerLetters i
  have hnumber : ∀ c ∈ (toString i).toList, isNumberLetter c = true := fun c hc =>
    isNumberLetter_of_integer (hletters c hc)
  show loads (n + 1) ((toString i).toList ++ rest) = _
  rw [loads_number hnumber (toString_ne_nil i), loadsNumber_append hnumber (toString_ne_nil i) hrest,
    if_pos (List.all_eq_true.mpr hletters), loadsInt_toString]

theorem loads_float (n : ℕ) {t : String} (ht : isFloatText t = true) {rest : List Char}
    (hrest : Past isNumberLetter rest) :
    loads (n + 1) ((Json.float t).dumps ++ rest) = some (.float t, rest) := by
  obtain ⟨hletters, hother⟩ := (Bool.and_eq_true _ _).mp ht
  have hnumber : ∀ c ∈ t.toList, isNumberLetter c = true := List.all_eq_true.mp hletters
  obtain ⟨c, hc, hnot⟩ := List.any_eq_true.mp hother
  have hall : ¬ (t.toList.all isIntegerLetter = true) := by
    intro hall
    rw [List.all_eq_true.mp hall c hc] at hnot
    cases hnot
  have hne : t.toList ≠ [] := List.ne_nil_of_mem hc
  show loads (n + 1) (t.toList ++ rest) = _
  rw [loads_number hnumber hne, loadsNumber_append hnumber hne hrest, if_neg hall,
    String.ofList_toList]

/-! ### Values -/

theorem dumps_head {v : Json} (hv : legible v = true) (rest : List Char) :
    (v.dumps ++ rest).head? ≠ some ']' := by
  have hnumber : ∀ {w : List Char}, w ≠ [] → (∀ c ∈ w, isNumberLetter c = true) →
      (w ++ rest).head? ≠ some ']' := by
    intro w hne hw he
    obtain ⟨c, w, rfl⟩ := List.exists_cons_of_ne_nil hne
    obtain rfl := Option.some.inj he
    exact absurd (hw _ List.mem_cons_self) (by decide)
  cases v with
  | null => simp [Json.dumps]
  | bool b => cases b <;> simp [Json.dumps]
  | int i =>
    exact hnumber (toString_ne_nil i) fun c hc => isNumberLetter_of_integer (integerLetters i c hc)
  | float t =>
    obtain ⟨hletters, hother⟩ := (Bool.and_eq_true _ _).mp hv
    obtain ⟨c, hc, -⟩ := List.any_eq_true.mp hother
    exact hnumber (List.ne_nil_of_mem hc) (List.all_eq_true.mp hletters)
  | str s => simp [Json.dumps, dumpsStr]
  | arr l => simp [Json.dumps]
  | obj l => simp [Json.dumps]

theorem dumps_ne_nil {v : Json} (hv : legible v = true) : v.dumps ≠ [] := by
  cases v with
  | null => exact List.cons_ne_nil _ _
  | bool b => cases b <;> exact List.cons_ne_nil _ _
  | int i => exact toString_ne_nil i
  | float t =>
    obtain ⟨-, hother⟩ := (Bool.and_eq_true _ _).mp hv
    obtain ⟨c, hc, -⟩ := List.any_eq_true.mp hother
    exact List.ne_nil_of_mem hc
  | str s | arr l | obj l => exact List.cons_ne_nil _ _

theorem past_separator {c stop : Char} {rest : List Char} (hc : c = ',' ∨ c = stop)
    (hstop : isNumberLetter stop = false) : Past isNumberLetter (c :: rest) := by
  refine past_cons ?_
  rcases hc with rfl | rfl
  · rfl
  · exact hstop

theorem loads_arr {n : ℕ} {l : List Json} {rest : List Char} (hne : l ≠ [])
    (hl : legibleItems l = true)
    (hread : ∀ v ∈ l, ∀ {rest}, Past isNumberLetter rest →
      loads n (v.dumps ++ rest) = some (v, rest)) :
    loads (n + 1) ((Json.arr l).dumps ++ rest) = some (.arr l, rest) := by
  have htext : (Json.arr l).dumps ++ rest = '[' :: (sepBy Json.dumps ',' l ++ ']' :: rest) := by
    simp [Json.dumps, dumpsItems_eq]
  have hhead : (sepBy Json.dumps ',' l ++ ']' :: rest).head? ≠ some ']' := by
    match l, hne with
    | [v], _ => exact dumps_head (legible_of_mem hl List.mem_cons_self) _
    | v :: w :: l, _ =>
      rw [sepBy, List.append_assoc]
      exact dumps_head (legible_of_mem hl List.mem_cons_self) _
  have hlength : l.length ≤ ('[' :: (sepBy Json.dumps ',' l ++ ']' :: rest)).length := by
    have hle := length_sepBy_le Json.dumps ',' l
    simp only [List.length_cons, List.length_append]
    omega
  have hitems : readSep (fun l => loads n l) ',' ']'
      ('[' :: (sepBy Json.dumps ',' l ++ ']' :: rest)).length
      (sepBy Json.dumps ',' l ++ ']' :: rest) = some (l, rest) :=
    readSep_sepBy (by decide) hne (fun v hv c rest hc => hread v hv (past_separator hc rfl)) hlength
  rw [htext, loads, if_neg (by simp), if_pos List.head?_cons, List.tail_cons, if_neg hhead, hitems]
  rfl

theorem loads_obj {n : ℕ} {l : List (String × Json)} {rest : List Char} (hne : l ≠ [])
    (hread : ∀ x ∈ l, ∀ {rest}, Past isNumberLetter rest →
      loads n (x.2.dumps ++ rest) = some (x.2, rest)) :
    loads (n + 1) ((Json.obj l).dumps ++ rest) = some (.obj l, rest) := by
  have htext : (Json.obj l).dumps ++ rest =
      '\x7b' :: (sepBy dumpsField ',' l ++ '\x7d' :: rest) := by
    simp [Json.dumps, dumpsFields_eq]
  have hhead : (sepBy dumpsField ',' l ++ '\x7d' :: rest).head? ≠ some '\x7d' := by
    match l, hne with
    | [x], _ => simp [sepBy, dumpsField, dumpsStr]
    | x :: y :: l, _ => simp [sepBy, dumpsField, dumpsStr]
  have hlength : l.length ≤ ('\x7b' :: (sepBy dumpsField ',' l ++ '\x7d' :: rest)).length := by
    have hle := length_sepBy_le dumpsField ',' l
    simp only [List.length_cons, List.length_append]
    omega
  have hfields : readSep (loadsField fun l => loads n l) ',' '\x7d'
      ('\x7b' :: (sepBy dumpsField ',' l ++ '\x7d' :: rest)).length
      (sepBy dumpsField ',' l ++ '\x7d' :: rest) = some (l, rest) :=
    readSep_sepBy (by decide) hne
      (fun x hx c rest hc => loadsField_dumpsField (hread x hx (past_separator hc rfl))) hlength
  rw [htext, loads, if_neg (by simp), if_neg (by simp), if_pos List.head?_cons, List.tail_cons, if_neg hhead,
    hfields]
  rfl

/-- **A value is read back**, by a reader that allows for enough values in each other. -/
theorem loads_dumps : ∀ (n : ℕ) {v : Json} {rest : List Char}, v.dumps.length ≤ n →
    legible v = true → Past isNumberLetter rest → loads n (v.dumps ++ rest) = some (v, rest)
  | 0, v, rest, hn, hv, _ =>
    absurd (List.length_eq_zero_iff.mp (Nat.le_zero.mp hn)) (dumps_ne_nil hv)
  | n + 1, .null, rest, _, _, _ => readWord_append "null".toList rest Json.null
  | n + 1, .bool true, rest, _, _, _ => readWord_append "true".toList rest (Json.bool true)
  | n + 1, .bool false, rest, _, _, _ => readWord_append "false".toList rest (Json.bool false)
  | n + 1, .int i, rest, _, _, hrest => loads_int n i hrest
  | n + 1, .float t, rest, _, hv, hrest => loads_float n hv hrest
  | n + 1, .str s, rest, _, _, _ => by
    have hread := loadsStr_dumpsStr s rest
    show (loadsStr (dumpsStr s ++ rest)).map _ = _
    rw [hread]
    rfl
  | n + 1, .arr [], rest, _, _, _ => rfl
  | n + 1, .arr (v :: l), rest, hn, hv, _ => by
    refine loads_arr (List.cons_ne_nil v l) hv fun w hw rest hrest => ?_
    have hle := length_le_sepBy Json.dumps ',' hw
    have hlength : w.dumps.length ≤ n := by
      simp only [Json.dumps, dumpsItems_eq, List.length_cons, List.length_append] at hn
      omega
    exact loads_dumps n hlength (legible_of_mem hv hw) hrest
  | n + 1, .obj [], rest, _, _, _ => rfl
  | n + 1, .obj (x :: l), rest, hn, hv, _ => by
    refine loads_obj (List.cons_ne_nil x l) fun y hy rest hrest => ?_
    have hle := length_le_sepBy dumpsField ',' hy
    have hlength : y.2.dumps.length ≤ n := by
      simp only [Json.dumps, dumpsFields_eq, dumpsField, List.length_cons, List.length_append] at hn hle
      omega
    exact loads_dumps n hlength (legible_of_mem_fields hv hy) hrest

/-! ### Bytes -/

/-- Every character is one byte. -/
abbrev Ascii (l : List Char) : Prop := ∀ c ∈ l, c.toNat < 128

theorem ascii_of_all {l : List Char} (h : l.all (fun c => c.toNat < 128) = true) : Ascii l :=
  fun c hc => of_decide_eq_true (List.all_eq_true.mp h c hc)

theorem ascii_append {l m : List Char} (hl : Ascii l) (hm : Ascii m) : Ascii (l ++ m) :=
  List.forall_mem_append.mpr ⟨hl, hm⟩

theorem ascii_cons {c : Char} {l : List Char} (hc : c.toNat < 128) (hl : Ascii l) :
    Ascii (c :: l) :=
  List.forall_mem_cons.mpr ⟨hc, hl⟩

theorem ascii_digitChar (n : ℕ) : (Nat.digitChar (n % 16)).toNat < 128 := by
  have hlt : n % 16 < 16 := Nat.mod_lt _ (by omega)
  interval_cases n % 16 <;> decide

theorem ascii_unicodeEscape (n : ℕ) : Ascii (unicodeEscape n) := by
  rw [unicodeEscape_eq]
  intro c hc
  simp only [List.mem_cons, List.not_mem_nil, or_false] at hc
  rcases hc with rfl | rfl | rfl | rfl | rfl | rfl
  · decide
  · decide
  · exact ascii_digitChar _
  · exact ascii_digitChar _
  · exact ascii_digitChar _
  · exact ascii_digitChar _

theorem ascii_dumpsChar (c : Char) : Ascii (dumpsChar c) := by
  unfold dumpsChar
  split_ifs with _ _ _ _ _ _ _ hprintable
  · exact ascii_of_all rfl
  · exact ascii_of_all rfl
  · exact ascii_of_all rfl
  · exact ascii_of_all rfl
  · exact ascii_of_all rfl
  · exact ascii_of_all rfl
  · exact ascii_of_all rfl
  · exact ascii_cons (by omega) (List.forall_mem_nil _)
  · exact ascii_unicodeEscape _
  · exact ascii_append (ascii_unicodeEscape _) (ascii_unicodeEscape _)

theorem ascii_dumpsStr (s : String) : Ascii (dumpsStr s) := by
  refine ascii_cons (by decide) (ascii_append ?_ (ascii_of_all rfl))
  intro c hc
  obtain ⟨d, -, hc⟩ := List.mem_flatMap.mp hc
  exact ascii_dumpsChar d c hc

theorem ascii_of_isNumberLetter {c : Char} (h : isNumberLetter c = true) : c.toNat < 128 := by
  rcases (Bool.or_eq_true _ _).mp h with h | h
  · have hdigit := (Char.isDigit_iff_toNat).mp h
    have hnine : '9'.toNat = 57 := rfl
    omega
  · have hother : Ascii ['-', '+', '.', 'e', 'E'] := ascii_of_all rfl
    exact hother c (List.contains_iff_mem.mp h)

mutual

theorem ascii_dumps : ∀ {v : Json}, legible v = true → Ascii v.dumps
  | .null, _ => ascii_of_all rfl
  | .bool true, _ => ascii_of_all rfl
  | .bool false, _ => ascii_of_all rfl
  | .int n, _ => fun c hc =>
    ascii_of_isNumberLetter (isNumberLetter_of_integer (integerLetters n c hc))
  | .float t, h => fun c hc =>
    ascii_of_isNumberLetter (List.all_eq_true.mp ((Bool.and_eq_true _ _).mp h).1 c hc)
  | .str s, _ => ascii_dumpsStr s
  | .arr l, h => ascii_cons (by decide) (ascii_append (ascii_dumpsItems h) (ascii_of_all rfl))
  | .obj l, h => ascii_cons (by decide) (ascii_append (ascii_dumpsFields h) (ascii_of_all rfl))

theorem ascii_dumpsItems : ∀ {l : List Json}, legibleItems l = true → Ascii (Json.dumpsItems l)
  | [], _ => List.forall_mem_nil _
  | [v], h => ascii_dumps ((Bool.and_eq_true _ _).mp h).1
  | v :: w :: l, h =>
    ascii_append (ascii_dumps ((Bool.and_eq_true _ _).mp h).1)
      (ascii_cons (by decide) (ascii_dumpsItems ((Bool.and_eq_true _ _).mp h).2))

theorem ascii_dumpsFields : ∀ {l : List (String × Json)}, legibleFields l = true →
    Ascii (Json.dumpsFields l)
  | [], _ => List.forall_mem_nil _
  | [(k, v)], h => ascii_append (ascii_dumpsStr k)
    (ascii_cons (by decide) (ascii_dumps ((Bool.and_eq_true _ _).mp h).1))
  | (k, v) :: x :: l, h =>
    ascii_append (ascii_append (ascii_dumpsStr k)
      (ascii_cons (by decide) (ascii_dumps ((Bool.and_eq_true _ _).mp h).1)))
      (ascii_cons (by decide) (ascii_dumpsFields ((Bool.and_eq_true _ _).mp h).2))

end

theorem chars_utf8Encode : ∀ {l : List Char}, Ascii l →
    l.utf8Encode.data.toList.map (fun b => Char.ofNat b.toNat) = l
  | [], _ => rfl
  | c :: l, h => by
    have hc : c.toNat < 128 := h c List.mem_cons_self
    have hsize : c.utf8Size = 1 := by
      rw [Char.utf8Size_eq_one_iff, UInt32.le_iff_toNat_le]
      exact Nat.le_of_lt_succ hc
    have hbyte : Char.ofNat c.val.toUInt8.toNat = c := by
      have hmod : c.val.toNat % 2 ^ 8 = c.toNat :=
        Nat.mod_eq_of_lt (Nat.lt_trans (m := 128) hc (by decide))
      rw [UInt32.toNat_toUInt8, hmod, Char.ofNat_toNat]
    have ih := chars_utf8Encode fun d hd => h d (List.mem_cons_of_mem _ hd)
    rw [List.utf8Encode_cons, List.utf8Encode_singleton, String.utf8EncodeChar_eq_singleton hsize,
      ByteArray.data_append, Array.toList_append, List.map_append, ih, List.toList_data_toByteArray,
      List.map_singleton, hbyte, List.singleton_append]

/-- **The bytes of a value** are read as that value. -/
theorem loadsBytes_dumps {v : Json} (h : legible v = true) :
    loadsBytes (String.ofList v.dumps).toUTF8.data.toList = .ok v := by
  have hread : loads v.dumps.length (v.dumps ++ []) = some (v, []) :=
    loads_dumps _ (Nat.le_refl _) h nofun
  rw [List.append_nil] at hread
  unfold loadsBytes
  rw [String.toUTF8_eq_toByteArray, String.toByteArray_ofList]
  simp only [chars_utf8Encode (ascii_dumps h), hread]

/-- The text of a webhook is what `json.dumps` writes for its payload. -/
theorem webhookText_eq (eventId : String) (p : Uuid) (id : String) :
    webhookText eventId p id = String.ofList (webhookPayload eventId p id).dumps := by
  have hdumps : (webhookPayload eventId p id).dumps =
      '\x7b' :: (dumpsStr "event_id" ++ ':' :: dumpsStr eventId ++
        ',' :: (dumpsStr "event_type" ++ ':' :: dumpsStr "payment.succeeded" ++
        ',' :: (dumpsStr "payment_id" ++ ':' :: dumpsStr p.text ++
        ',' :: (dumpsStr "provider_payment_id" ++ ':' :: dumpsStr id ++
        ',' :: (dumpsStr "status" ++ ':' :: dumpsStr "SUCCEEDED")))) ++ ['\x7d']) := rfl
  have h₁ : "\x7b\"event_id\":".toList = '\x7b' :: (dumpsStr "event_id" ++ [':']) := by
    decide +kernel
  have h₂ : ",\"event_type\":\"payment.succeeded\",\"payment_id\":".toList =
      ',' :: (dumpsStr "event_type" ++ ':' :: (dumpsStr "payment.succeeded" ++
        ',' :: (dumpsStr "payment_id" ++ [':']))) := by
    decide +kernel
  have h₃ : ",\"provider_payment_id\":".toList =
      ',' :: (dumpsStr "provider_payment_id" ++ [':']) := by
    decide +kernel
  have h₄ : ",\"status\":\"SUCCEEDED\"\x7d".toList =
      ',' :: (dumpsStr "status" ++ ':' :: (dumpsStr "SUCCEEDED" ++ ['\x7d'])) := by
    decide +kernel
  unfold webhookText
  rw [hdumps, h₁, h₂, h₃, h₄]
  simp only [List.append_assoc, List.cons_append, List.nil_append]

/-- **The provider's webhook** is read as the payload that it was written from. -/
theorem loadsBytes_webhookText (eventId : String) (p : Uuid) (id : String) :
    loadsBytes (webhookText eventId p id).toUTF8.data.toList = .ok (webhookPayload eventId p id) := by
  rw [webhookText_eq]
  exact loadsBytes_dumps rfl

end Payflow.Spec
