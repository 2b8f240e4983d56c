import MeasureSql.Toml.Basic

/-!
# Unquoted TOML values

Truth values, numbers, dates and times: all values that are written without quotes or brackets.
Such a value is first cut out of the text as a run of characters, and the whole run must then fit
one of the forms.

## Main definitions

* `Toml.scalarRun` — the characters of an unquoted value.
* `Toml.scalar?` — the value of such a run.
-/

namespace MeasureSql.Toml

/-- Digits that satisfy a test, with single underscores between them. -/
def isDigits (isDigit : Char → Bool) (cs : List Char) : Bool :=
  (cs.splitOnP (· == '_')).all fun group => !group.isEmpty && group.all isDigit

/-- Does no zero stand before other digits? -/
def hasNoLeadingZero : List Char → Bool
  | '0' :: _ :: _ => false
  | _ => true

/-- Digits without the underscores between them. -/
def plainDigits (cs : List Char) : List Char :=
  cs.filter (· != '_')

/-- The value of digits to a base. -/
def valueToBase (base : Nat) (cs : List Char) : Nat :=
  (plainDigits cs).foldl (fun n c => base * n + (hexValue? c).getD 0) 0

/-- Is the character a digit to a base? -/
def isDigitToBase (base : Nat) (c : Char) : Bool :=
  ((hexValue? c).map fun n => decide (n < base)).getD false

/-- Digits to a base, after the mark that announces it. -/
def basedInteger? (base : Nat) (cs : List Char) : Option Int :=
  if isDigits (isDigitToBase base) cs then some (valueToBase base cs) else none

/-- A whole number: decimal digits with an optional sign, or digits to another base. -/
def integer? (cs : List Char) : Option Int :=
  match cs with
  | '0' :: 'x' :: digits => basedInteger? 16 digits
  | '0' :: 'o' :: digits => basedInteger? 8 digits
  | '0' :: 'b' :: digits => basedInteger? 2 digits
  | _ =>
    let (negative, digits) := splitSign cs
    if isDigits Char.isDigit digits && hasNoLeadingZero digits then
      let n : Int := digitsValue (plainDigits digits)
      some (if negative then -n else n)
    else none

/-- Whole numbers are held in 128 bits, with a sign or without one. -/
def fits (n : Int) : Bool :=
  -0x80000000000000000000000000000000 ≤ n && n < 0x100000000000000000000000000000000

/-- Does a fraction or an exponent, or both, follow the digits before the point? -/
def isFloatTail (cs : List Char) : Bool :=
  match cs with
  | '.' :: rest =>
    isDigits Char.isDigit (rest.takeWhile notExponent) && isExponent (rest.dropWhile notExponent)
  | _ => !cs.isEmpty && isExponent cs
where
  notExponent (c : Char) : Bool := c != 'e' && c != 'E'
  isExponent : List Char → Bool
    | [] => true
    | e :: rest => !notExponent e && isDigits Char.isDigit (splitSign rest).2

/-- A number with a fraction or an exponent, or one of the words for infinity and for no number; no
digits may stand for infinity. -/
def float? (cs : List Char) : Option Double :=
  let (negative, body) := splitSign cs
  if body == "inf".toList then some (.infinite negative)
  else if body == "nan".toList then some .nan
  else
    let isWhole (c : Char) : Bool := c.isDigit || c == '_'
    let whole := body.takeWhile isWhole
    if isDigits Char.isDigit whole && hasNoLeadingZero whole
        && isFloatTail (body.dropWhile isWhole) then
      match Double.read? (String.ofList (plainDigits cs)) with
      | some (.infinite _) => none
      | x => x
    else none

/-- A given number of digits with a value between two bounds, and what follows them. -/
def digitsBetween? (count least most : Nat) (cs : List Char) : Option (Nat × List Char) :=
  let digits := cs.take count
  let n := digitsValue digits
  if digits.length == count && digits.all Char.isDigit && least ≤ n && n ≤ most then
    some (n, cs.drop count)
  else none

/-- What follows a mark. -/
def after? (mark : Char) : List Char → Option (List Char)
  | c :: rest => if c == mark then some rest else none
  | [] => none

/-- How many days a month has. -/
def daysIn (year month : Nat) : Nat :=
  if month == 2 then
    if year % 4 == 0 && (year % 100 != 0 || year % 400 == 0) then 29 else 28
  else if [4, 6, 9, 11].contains month then 30
  else 31

/-- What follows a date. -/
def afterDate? (cs : List Char) : Option (List Char) := do
  let (year, cs) ← digitsBetween? 4 0 9999 cs
  let (month, cs) ← digitsBetween? 2 1 12 (← after? '-' cs)
  let (_, cs) ← digitsBetween? 2 1 (daysIn year month) (← after? '-' cs)
  some cs

/-- What follows a time of day, with an optional fraction of a second. -/
def afterTime? (cs : List Char) : Option (List Char) := do
  let (_, cs) ← digitsBetween? 2 0 23 cs
  let (_, cs) ← digitsBetween? 2 0 59 (← after? ':' cs)
  let (_, cs) ← digitsBetween? 2 0 60 (← after? ':' cs)
  match cs with
  | '.' :: rest =>
    if (rest.takeWhile Char.isDigit).isEmpty then none else some (rest.dropWhile Char.isDigit)
  | _ => some cs

/-- Is this the distance from universal time, or nothing? -/
def isOffset : List Char → Bool
  | [] | ['Z'] | ['z'] => true
  | c :: rest =>
    (c == '+' || c == '-') && ((do
      let (_, cs) ← digitsBetween? 2 0 23 rest
      let (_, cs) ← digitsBetween? 2 0 59 (← after? ':' cs)
      some cs) == some [])

/-- Is this a date, a time, or a date with a time? -/
def isMoment (cs : List Char) : Bool :=
  match afterDate? cs with
  | some [] => true
  | some (c :: rest) =>
    (c == 'T' || c == 't' || c == ' ') && ((afterTime? rest).map isOffset).getD false
  | none => afterTime? cs == some []

/-- The value of a run of characters. -/
def scalar? (cs : List Char) : Option Toml :=
  if cs == "true".toList then some (.boolean true)
  else if cs == "false".toList then some (.boolean false)
  else match integer? cs with
    | some n => if fits n then some (.integer n) else none
    | none => match float? cs with
      | some x => some (.float x)
      | none => if isMoment cs then some (.moment (String.ofList cs)) else none

/-- Can an unquoted value hold the character? -/
def isScalarChar (c : Char) : Bool :=
  c.isAlphanum || c == '+' || c == '-' || c == '_' || c == '.' || c == ':'

/-- The characters of an unquoted value, and what follows them.  A space between a date and a time
belongs to the value. -/
def scalarRun (cs : List Char) : List Char × List Char :=
  let run := cs.takeWhile isScalarChar
  match afterDate? run, cs.dropWhile isScalarChar with
  | some [], ' ' :: d :: rest =>
    if d.isDigit then
      (run ++ ' ' :: (d :: rest).takeWhile isScalarChar, (d :: rest).dropWhile isScalarChar)
    else (run, ' ' :: d :: rest)
  | _, rest => (run, rest)

end MeasureSql.Toml
