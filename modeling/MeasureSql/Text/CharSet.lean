/-!
# Sets of characters

A set of code points is kept as the sorted list of places where membership changes: a character
belongs to the set when an odd number of those places lie at or below it.  In this form the
symmetric difference of two sets is the symmetric difference of their lists.

## Main definitions

* `CharSet` — a set given by its bounds, and `CharSet.contains`.
* `isAscii` — the code points below U+0080, for which every class of the library has a rule of
  its own.
-/

namespace MeasureSql.Text

/-- A set of characters, given by the code points where membership changes. -/
structure CharSet where
  bounds : Array Nat

namespace CharSet

/-- A character is in the set when an odd number of bounds lie at or below it. -/
def contains (s : CharSet) (c : Char) : Bool :=
  s.bounds.foldl (fun inside b => if b ≤ c.toNat then !inside else inside) false

end CharSet

/-- Is the character one of the first 128? -/
def isAscii (c : Char) : Bool :=
  c.val < 0x80

end MeasureSql.Text
