import MeasureSql.Number.Shortest

/-!
# Number layouts

How the shortest digits of a number are set out: where the point goes, which sizes are written with
an exponent, and what stands for the values that have no digits.

## Main definitions

* `Layout` — the decisions of one written form.
* `Double.write` — a number in that form.
* `Layout.sql` — the form used in SQL text: always a point, an exponent from `10 ^ 16` on.
* `Layout.plain` — the form used in expressions: never an exponent, no point for whole numbers.
-/

namespace MeasureSql

/-- The decisions of one written form of numbers. -/
structure Layout where
  /-- Which of two equally near decimals is taken. -/
  tie : Tie
  /-- Whole numbers keep a final `.0`. -/
  keepsPoint : Bool
  /-- The sizes `point` that are written out in full; others take an exponent. -/
  isPositional : Int → Bool

/-- SQL text: `0.001`, `1.5`, `100.0`, but `1e16` and `1e-7`. -/
def Layout.sql : Layout := ⟨.toEven, true, fun point => -5 < point && point ≤ 16⟩

/-- Expression text: every digit is written out and whole numbers have no point. -/
def Layout.plain : Layout := ⟨.up, false, fun _ => true⟩

namespace Layout

/-- `n` zeros. -/
def zeros (n : Int) : List Char := List.replicate n.toNat '0'

/-- Digits written out in full. -/
def positional (l : Layout) (d : Digits) : List Char :=
  let n : Int := d.digits.length
  if n ≤ d.point then
    d.digits ++ zeros (d.point - n) ++ (if l.keepsPoint then ['.', '0'] else [])
  else if 0 < d.point then
    d.digits.take d.point.toNat ++ ['.'] ++ d.digits.drop d.point.toNat
  else ['0', '.'] ++ zeros (-d.point) ++ d.digits

/-- Digits with an exponent, the point after the first one. -/
def scientific (d : Digits) : List Char :=
  let exponent := (toString (d.point - 1)).toList
  match d.digits with
  | [] => ['0']
  | [c] => c :: 'e' :: exponent
  | c :: rest => c :: '.' :: rest ++ 'e' :: exponent

/-- The digits of a positive number in this layout. -/
def magnitude (l : Layout) (m : Nat) (e : Int) : List Char :=
  let d := Double.shortest l.tie m e
  if l.isPositional d.point then l.positional d else scientific d

end Layout

/-- A number in a given layout. -/
def Double.write (l : Layout) : Double → String
  | .nan => "NaN"
  | .infinite negative => if negative then "-inf" else "inf"
  | .finite negative m e =>
    let body :=
      if m = 0 then (if l.keepsPoint then ['0', '.', '0'] else ['0']) else l.magnitude m e
    String.ofList (if negative then '-' :: body else body)

end MeasureSql
