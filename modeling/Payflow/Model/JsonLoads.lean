import Payflow.Lib.Reading
import Payflow.Model.Values

/-! # Reading JSON

`json.loads` of texts without blanks, as `json.dumps` writes them with the separators `,` and `:`. -/

namespace Payflow.Model

open Payflow.Lib

/-! ### Characters -/

/-- The value of a hexadecimal digit. -/
def hexValue (c : Char) : ℕ := if c.isDigit then c.toNat - 48 else c.toNat - 87

/-- The number of four hexadecimal digits. -/
def hexNumber (a b c d : Char) : ℕ :=
  hexValue a * 4096 + hexValue b * 256 + hexValue c * 16 + hexValue d

/-- The second half of a pair of surrogates. -/
def loadsLow (high : ℕ) : List Char → Option (Char × List Char)
  | '\\' :: 'u' :: a :: b :: c :: d :: rest =>
    some (Char.ofNat (65536 + (high - 55296) * 1024 + (hexNumber a b c d - 56320)), rest)
  | _ => none

/-- Four hexadecimal digits, and the second half if they are the first one of a pair. -/
def loadsUnicode : List Char → Option (Char × List Char)
  | a :: b :: c :: d :: rest =>
    let n := hexNumber a b c d
    if 55296 ≤ n ∧ n < 57344 then loadsLow n rest else some (Char.ofNat n, rest)
  | _ => none

/-- What follows a backslash. -/
def loadsEscape : List Char → Option (Char × List Char)
  | [] => none
  | c :: rest =>
    if c = 'u' then loadsUnicode rest
    else if c = 'n' then some ('\n', rest)
    else if c = 'r' then some ('\r', rest)
    else if c = 't' then some ('\t', rest)
    else if c = 'f' then some ('\x0c', rest)
    else if c = 'b' then some ('\x08', rest)
    else some (c, rest)

/-- Read one character of a text in JSON. -/
def loadsChar : List Char → Option (Char × List Char)
  | [] => none
  | c :: rest => if c = '\\' then loadsEscape rest else some (c, rest)

/-! ### Values -/

/-- The letters of a number. -/
def isNumberLetter (c : Char) : Bool := c.isDigit || ['-', '+', '.', 'e', 'E'].contains c

/-- The letters of an integer. -/
def isIntegerLetter (c : Char) : Bool := c.isDigit || c = '-'

/-- The integer of a text. -/
def loadsInt (l : List Char) : ℤ :=
  if l.head? = some '-' then -(numberOf l.tail : ℤ) else numberOf l

/-- A number; one that is no integer is kept as its text. -/
def loadsNumber (l : List Char) : Option (Json × List Char) :=
  let w := l.takeWhile isNumberLetter
  if w = [] then none
  else some (if w.all isIntegerLetter then .int (loadsInt w) else .float (String.ofList w),
    l.dropWhile isNumberLetter)

/-- A text. -/
def loadsStr (l : List Char) : Option (String × List Char) :=
  if l.head? = some '"' then
    (readUntil loadsChar '"' l.length l.tail).map fun x => (String.ofList x.1, x.2)
  else none

/-- A key, a colon and a value. -/
def loadsField (read : List Char → Option (Json × List Char)) (l : List Char) :
    Option ((String × Json) × List Char) :=
  (loadsStr l).bind fun k =>
    if k.2.head? = some ':' then (read k.2.tail).map fun v => ((k.1, v.1), v.2) else none

/-- `json.loads` of a text without blanks: a value at the head of the text, in which no more than
`n` values are nested. -/
def loads : ℕ → List Char → Option (Json × List Char)
  | 0, _ => none
  | n + 1, l =>
    if l.head? = some '"' then (loadsStr l).map fun x => (.str x.1, x.2)
    else if l.head? = some '[' then
      if l.tail.head? = some ']' then some (.arr [], l.tail.tail)
      else (readSep (fun l => loads n l) ',' ']' l.length l.tail).map fun x => (.arr x.1, x.2)
    else if l.head? = some '\x7b' then
      if l.tail.head? = some '\x7d' then some (.obj [], l.tail.tail)
      else (readSep (loadsField fun l => loads n l) ',' '\x7d' l.length l.tail).map fun x =>
        (.obj x.1, x.2)
    else if l.head? = some 'n' then readWord "null".toList .null l
    else if l.head? = some 't' then readWord "true".toList (.bool true) l
    else if l.head? = some 'f' then readWord "false".toList (.bool false) l
    else loadsNumber l

/-- `json.loads` of bytes, of which each is one character. -/
def loadsBytes (body : List UInt8) : Except Exn Json :=
  let text := body.map fun b => Char.ofNat b.toNat
  match loads text.length text with
  | some (v, []) => .ok v
  | _ => .error .jsonDecodeError

end Payflow.Model
