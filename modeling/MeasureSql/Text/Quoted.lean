import MeasureSql.Text.Printable

/-!
# Quoted text

Where a text is quoted in a source, the characters that would end it are written twice.  In a
message a character or a text is shown between quotes so that every character of it can be seen: the
common controls by a letter after a backslash, the quote and the backslash by a backslash before
them, and whatever cannot be seen by its code point in hexadecimal.

## Main definitions

* `doubled` — characters with some of them written twice.
* `quotedChar` — between single quotes, for a message.
* `quoted` — between double quotes, for a message.
-/

namespace MeasureSql.Text

/-- Characters with some of them written twice. -/
def doubled (twice : Char → Bool) : List Char → List Char
  | [] => []
  | c :: cs => if twice c then c :: c :: doubled twice cs else c :: doubled twice cs

/-- One character inside the quotes `mark`. -/
def escapedChar (mark c : Char) : List Char :=
  if c == '\x00' then ['\\', '0']
  else if c == '\t' then ['\\', 't']
  else if c == '\r' then ['\\', 'r']
  else if c == '\n' then ['\\', 'n']
  else if c == '\\' || c == mark then ['\\', c]
  else if isPrintable c then [c]
  else ['\\', 'u', '\x7b'] ++ Nat.toDigits 16 c.toNat ++ ['\x7d']

/-- A character between single quotes. -/
def quotedChar (c : Char) : String :=
  String.ofList (['\x27'] ++ escapedChar '\x27' c ++ ['\x27'])

/-- A text between double quotes. -/
def quoted (s : String) : String :=
  String.ofList (['"'] ++ s.toList.flatMap (escapedChar '"') ++ ['"'])

end MeasureSql.Text
