/-!
# Double-precision numbers

A number of the binary64 format as an exact value: a sign, a mantissa below `2 ^ 53` and a power of
two.  Nothing is computed with such numbers here; they are read from decimal text, rounded once,
and written back, so exact arithmetic on natural numbers is all that is needed.

## Main definitions

* `Double` — a finite number, an infinity, or no number at all.
* `Double.ofRatio` — the nearest number to a quotient, ties to the even mantissa.
* `Double.ofDecimal` — the nearest number to `digits · 10 ^ exponent`.
-/

namespace MeasureSql

/-- A number of the binary64 format.  `finite neg m e` is `± m · 2 ^ e`; the readers of this library
produce only the canonical form, where `-1074 ≤ e` and `m < 2 ^ 53`, and `2 ^ 52 ≤ m` unless
`e = -1074`. -/
inductive Double where
  | finite (negative : Bool) (mantissa : Nat) (exponent : Int)
  | infinite (negative : Bool)
  | nan
  deriving DecidableEq, Repr, Inhabited

namespace Double

/-- The least power of two of a finite number. -/
def minExponent : Int := -1074

/-- The greatest power of two of a finite number. -/
def maxExponent : Int := 971

/-- Zero with a sign. -/
def zero (negative : Bool) : Double := .finite negative 0 minExponent

/-- `num / den · 2 ^ (- shift)` as a quotient of natural numbers. -/
def scaledRatio (num den : Nat) (shift : Int) : Nat × Nat :=
  if 0 ≤ shift then (num, den * Nat.pow 2 shift.toNat) else (num * Nat.pow 2 (-shift).toNat, den)

/-- The nearest natural number to `num / den`, a tie going to the even one. -/
def roundHalfEven (num den : Nat) : Nat :=
  let q := num / den
  let twice := 2 * (num % den)
  if twice < den then q else if twice = den then q + q % 2 else q + 1

/-- The power of two at which `num / den` has a mantissa of 53 bits, or the least one. -/
def exponentFor (num den : Nat) : Int :=
  let guess : Int := (num.log2 : Int) - (den.log2 : Int) - 52
  let (n, d) := scaledRatio num den guess
  max minExponent (if n / d < Nat.pow 2 52 then guess - 1 else guess)

/-- The nearest number to `± num / den`; too large a value is an infinity. -/
def ofRatio (negative : Bool) (num den : Nat) : Double :=
  if num = 0 then zero negative
  else
    let e := exponentFor num den
    let (n, d) := scaledRatio num den e
    let m := roundHalfEven n d
    let (m, e) := if m = Nat.pow 2 53 then (Nat.pow 2 52, e + 1) else (m, e)
    if maxExponent < e then .infinite negative else .finite negative m e

/-- The nearest number to `± digits · 10 ^ exponent`.  Exponents far outside the range of the format
are decided by the number of digits alone. -/
def ofDecimal (negative : Bool) (digits : Nat) (exponent : Int) : Double :=
  if digits = 0 then zero negative
  else
    let size : Int := (Nat.toDigits 10 digits).length + exponent
    if 400 < size then .infinite negative
    else if size < -400 then zero negative
    else if 0 ≤ exponent then ofRatio negative (digits * Nat.pow 10 exponent.toNat) 1
    else ofRatio negative digits (Nat.pow 10 (-exponent).toNat)

end Double

end MeasureSql
