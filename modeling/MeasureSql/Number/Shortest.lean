import MeasureSql.Number.Double

/-!
# The shortest digits of a number

Of all decimals that read back as a given number, the ones with the fewest digits are kept, and of
these the nearest.  The decimals of `n` digits form a grid; if any point of the grid reads back as
the number then one of the number's two neighbours on it does, so only those two are tried, for
one digit, two, and so on up to seventeen.

## Main definitions

* `Tie` — which neighbour is taken when both are equally near.
* `Digits` — a decimal `0.d₁d₂… · 10 ^ point`.
* `Double.shortest` — the shortest digits of a positive number `m · 2 ^ e`.
-/

namespace MeasureSql

/-- The choice between two decimals at the same distance. -/
inductive Tie where
  | toEven
  | up
  deriving DecidableEq, Repr

/-- The decimal `0.d₁d₂…dₙ · 10 ^ point`, written without trailing zeros. -/
structure Digits where
  digits : List Char
  point : Int
  deriving DecidableEq, Repr

namespace Double

/-- A non-negative rational number as numerator and positive denominator. -/
structure Ratio where
  num : Nat
  den : Nat

namespace Ratio

/-- `n · 2 ^ e`. -/
def ofBinary (n : Nat) (e : Int) : Ratio :=
  if 0 ≤ e then ⟨n * Nat.pow 2 e.toNat, 1⟩ else ⟨n, Nat.pow 2 (-e).toNat⟩

/-- `n · 10 ^ e`. -/
def ofDecimal (n : Nat) (e : Int) : Ratio :=
  if 0 ≤ e then ⟨n * Nat.pow 10 e.toNat, 1⟩ else ⟨n, Nat.pow 10 (-e).toNat⟩

/-- Comparison by cross multiplication. -/
def lt (a b : Ratio) : Bool := a.num * b.den < b.num * a.den

/-- Comparison by cross multiplication. -/
def le (a b : Ratio) : Bool := a.num * b.den ≤ b.num * a.den

/-- The greatest natural number not above `a / b`. -/
def floorDiv (a b : Ratio) : Nat := (a.num * b.den) / (a.den * b.num)

end Ratio

/-- The numbers that read back as `m · 2 ^ e` lie between the midpoints to its two neighbours; the
midpoints themselves belong when `m` is even. -/
structure Interval where
  low : Ratio
  high : Ratio
  closed : Bool

/-- The rounding interval of `m · 2 ^ e`; below the least mantissa of 53 bits the neighbours are
twice as close. -/
def interval (m : Nat) (e : Int) : Interval where
  low := if m = Nat.pow 2 52 ∧ minExponent < e then .ofBinary (4 * m - 1) (e - 2)
    else .ofBinary (2 * m - 1) (e - 1)
  high := .ofBinary (2 * m + 1) (e - 1)
  closed := m % 2 == 0

/-- Does a decimal read back as the number whose interval this is? -/
def Interval.holds (i : Interval) (r : Ratio) : Bool :=
  if i.closed then i.low.le r && r.le i.high else i.low.lt r && r.lt i.high

/-- The exponent of the leading digit: the greatest `p` with `10 ^ p ≤ v`, searched upward from a
lower bound. -/
def leadingExponent (v : Ratio) : Nat → Int → Int
  | 0, p => p
  | fuel + 1, p => if (Ratio.ofDecimal 1 (p + 1)).le v then leadingExponent v fuel (p + 1) else p

/-- The better of the two neighbours of `v` on the grid `10 ^ p`, if one of them reads back. -/
def onGrid (tie : Tie) (i : Interval) (v : Ratio) (p : Int) : Option Nat :=
  let below := v.floorDiv (.ofDecimal 1 p)
  let above := below + 1
  match i.holds (.ofDecimal below p), i.holds (.ofDecimal above p) with
  | true, false => some below
  | false, true => some above
  | false, false => none
  | true, true =>
    let mid := Ratio.ofDecimal (10 * below + 5) (p - 1)
    if v.lt mid then some below
    else if mid.lt v then some above
    else match tie with
      | .up => some above
      | .toEven => some (if below % 2 = 0 then below else above)

/-- The first grid, from one digit to `n` digits on, with a hit. -/
def searchGrids (tie : Tie) (i : Interval) (v : Ratio) : Nat → Int → Nat × Int
  | 0, p => (v.floorDiv (.ofDecimal 1 p), p)
  | fuel + 1, p => match onGrid tie i v p with
    | some d => (d, p)
    | none => searchGrids tie i v fuel (p - 1)

/-- Digits without trailing zeros, with the point set so that the value is `d · 10 ^ p`. -/
def digitsOf (d : Nat) (p : Int) : Digits :=
  let all := Nat.toDigits 10 d
  let kept := (all.reverse.dropWhile (· == '0')).reverse
  ⟨kept, all.length + p⟩

/-- The shortest digits that read back as `m · 2 ^ e`, for `0 < m`. -/
def shortest (tie : Tie) (m : Nat) (e : Int) : Digits :=
  let v := Ratio.ofBinary m e
  let estimate : Int := ((m.log2 : Int) + e) * 1233 / 4096 - 1
  let lead := leadingExponent v 4 estimate
  let (d, p) := searchGrids tie (interval m e) v 17 lead
  digitsOf d p

end Double

end MeasureSql
