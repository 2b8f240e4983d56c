import MeasureSql.Text.CaseTable

/-!
# Letter case

Two ways of ignoring letter case live side by side.  `upper` and `lower` are the full Unicode
mappings, under which one letter may become several and a capital sigma at the end of a word
becomes a final one; `asciiUpper`, `asciiLower` and `sameIgnoringCase` move the letters A to Z only.

## Main definitions

* `upper`, `lower` — the full mappings.
* `asciiUpper`, `asciiLower`, `sameIgnoringCase` — the ASCII ones.
-/

namespace MeasureSql.Text

/-- The capital form of a character. -/
def upperChar (c : Char) : List Char :=
  if isAscii c then [c.toUpper]
  else match upperSpecials.find? (·.1 == c.toNat) with
    | some (_, image) => image.map Char.ofNat
    | none => match upperRuns.find? (·.holds c.toNat) with
      | some run => [run.move c.toNat]
      | none => [c]

/-- The small form of a character that stands alone; a capital I with a dot keeps the dot. -/
def lowerChar (c : Char) : List Char :=
  if isAscii c then [c.toLower]
  else if c.toNat == 0x130 then ['i', Char.ofNat 0x307]
  else match lowerRuns.find? (·.holds c.toNat) with
    | some run => [run.move c.toNat]
    | none => [c]

/-- The full capital form of a text. -/
def upper (s : String) : String :=
  String.ofList (s.toList.flatMap upperChar)

/-- Is the first character that is not passed over one with a case? -/
def meetsCased (cs : List Char) : Bool :=
  ((cs.dropWhile isCaseIgnorable).head?.map isCased).getD false

/-- Small forms from left to right; `before` is what has been passed, nearest first.  A capital
sigma that ends a word becomes a final small sigma. -/
def lowerFrom (before : List Char) : List Char → List Char
  | [] => []
  | c :: rest =>
    let image :=
      if c.toNat == 0x3A3 then
        if meetsCased before && !meetsCased rest then [Char.ofNat 0x3C2] else [Char.ofNat 0x3C3]
      else lowerChar c
    image ++ lowerFrom (c :: before) rest

/-- The full small form of a text. -/
def lower (s : String) : String :=
  String.ofList (lowerFrom [] s.toList)

/-- Capitals for the letters a to z; everything else stays. -/
def asciiUpper (s : String) : String :=
  String.ofList (s.toList.map Char.toUpper)

/-- Small letters for A to Z; everything else stays. -/
def asciiLower (s : String) : String :=
  String.ofList (s.toList.map Char.toLower)

/-- Are two texts equal up to the case of the letters a to z? -/
def sameIgnoringCase (s t : String) : Bool :=
  s.toList.map Char.toUpper == t.toList.map Char.toUpper

end MeasureSql.Text
