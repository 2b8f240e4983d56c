import MeasureSql.Number.Double

/-!
# Numerals

Reading numbers from text: whole numbers with an optional sign, and decimals with an optional
fraction and exponent, or one of the words for infinity and for no number.

## Main definitions

* `readInt64?` — a whole number in the signed 64-bit range.
* `Double.read?` — a decimal numeral, rounded to the nearest double.
-/

namespace MeasureSql

/-- The value of decimal digits, most significant first. -/
def digitsValue (cs : List Char) : Nat :=
  cs.foldl (fun n c => 10 * n + (c.toNat - '0'.toNat)) 0

/-- The value of a hexadecimal digit. -/
def hexValue? (c : Char) : Option Nat :=
  if '0' ≤ c && c ≤ '9' then some (c.toNat - 48)
  else if 'a' ≤ c && c ≤ 'f' then some (c.toNat - 87)
  else if 'A' ≤ c && c ≤ 'F' then some (c.toNat - 55)
  else none

/-- An optional sign in front: is it a minus, and what follows it? -/
def splitSign : List Char → Bool × List Char
  | '+' :: cs => (false, cs)
  | '-' :: cs => (true, cs)
  | cs => (false, cs)

/-- An optional sign and at least one digit, nothing else. -/
def readInt? (cs : List Char) : Option Int :=
  let (negative, digits) := splitSign cs
  if digits.isEmpty || !digits.all Char.isDigit then none
  else
    let n : Int := digitsValue digits
    some (if negative then -n else n)

/-- A whole number in the signed 64-bit range. -/
def readInt64? (cs : List Char) : Option Int :=
  (readInt? cs).filter fun n => -0x8000000000000000 ≤ n && n < 0x8000000000000000

namespace Double

/-- The exponent part of a numeral: nothing, or `e` with an optional sign and digits. -/
def readExponent? : List Char → Option Int
  | [] => some 0
  | c :: cs => if c == 'e' || c == 'E' then readInt? cs else none

/-- Digits with an optional fraction and exponent; a point needs a digit on one of its sides. -/
def readUnsigned? (negative : Bool) (cs : List Char) : Option Double :=
  let whole := cs.takeWhile Char.isDigit
  let rest := cs.dropWhile Char.isDigit
  let (fraction, tail) := match rest with
    | '.' :: after => (after.takeWhile Char.isDigit, after.dropWhile Char.isDigit)
    | _ => ([], rest)
  if whole.isEmpty && fraction.isEmpty then none
  else (readExponent? tail).map fun e =>
    ofDecimal negative (digitsValue (whole ++ fraction)) (e - fraction.length)

/-- A decimal numeral, or `inf`, `infinity` or `nan` in any case, with an optional sign. -/
def read? (s : String) : Option Double :=
  let (negative, body) := splitSign s.toList
  let word := body.map Char.toLower
  if word == "inf".toList || word == "infinity".toList then some (.infinite negative)
  else if word == "nan".toList then some .nan
  else readUnsigned? negative body

end Double

end MeasureSql
