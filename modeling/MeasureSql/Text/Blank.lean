/-!
# Blanks

The characters with the Unicode property White_Space, and the operations on text that depend on
them.

## Main definitions

* `isBlank` — a line break, a tabulator or a space of any width; zero-width characters are none.
* `trim`, `words` — cutting a text at its blanks.
-/

namespace MeasureSql.Text

/-- The Unicode property White_Space. -/
def isBlank (c : Char) : Bool :=
  let n := c.toNat
  (9 ≤ n && n ≤ 13) || n == 0x20 || n == 0x85 || n == 0xA0 || n == 0x1680 ||
    (0x2000 ≤ n && n ≤ 0x200A) || n == 0x2028 || n == 0x2029 || n == 0x202F || n == 0x205F ||
    n == 0x3000

/-- Characters without the blanks at both ends. -/
def trimChars (cs : List Char) : List Char :=
  ((cs.dropWhile isBlank).reverse.dropWhile isBlank).reverse

/-- A text without the blanks at both ends. -/
def trim (s : String) : String :=
  String.ofList (trimChars s.toList)

/-- The maximal runs of characters that are not blank, in order. -/
def words (s : String) : List String :=
  (s.toList.splitOnP isBlank).filterMap fun w => if w.isEmpty then none else some (String.ofList w)

end MeasureSql.Text
