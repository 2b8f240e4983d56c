import MeasureSql.Json.Basic

/-!
# JSON text

Two written forms of a JSON value: on one line without blanks, and spread over lines with two
blanks for each level.  Both escape the quote, the backslash and the control characters, and write
everything else as it is.

## Main definitions

* `Json.escaped` — a text between quotes.
* `Json.compact` — a value on one line.
* `Json.pretty` — a value spread over lines.
-/

namespace MeasureSql.Json

/-- A hexadecimal digit, in small letters. -/
def hexDigit (n : Nat) : Char :=
  if n < 10 then Char.ofNat (48 + n) else Char.ofNat (87 + n)

/-- One character inside a quoted text. -/
def escapedChar (c : Char) : List Char :=
  if c == '"' then ['\\', '"']
  else if c == '\\' then ['\\', '\\']
  else if c == '\x08' then ['\\', 'b']
  else if c == '\x0c' then ['\\', 'f']
  else if c == '\n' then ['\\', 'n']
  else if c == '\r' then ['\\', 'r']
  else if c == '\t' then ['\\', 't']
  else if c.toNat < 0x20 then
    ['\\', 'u', '0', '0', hexDigit (c.toNat / 16), hexDigit (c.toNat % 16)]
  else [c]

/-- A text between quotes. -/
def escaped (s : String) : String :=
  String.ofList ('"' :: s.toList.flatMap escapedChar ++ ['"'])

/-- A number with a fraction or exponent; what is no finite number is `null`. -/
def floatText : Double → String
  | .finite negative m e => (Double.finite negative m e).write .sql
  | _ => "null"

mutual

/-- A value on one line. -/
def compact : Json → String
  | .null => "null"
  | .bool b => if b then "true" else "false"
  | .int n => toString n
  | .float x => floatText x
  | .str s => escaped s
  | .arr items => "[" ++ ",".intercalate (compactItems items) ++ "]"
  | .obj members => "\x7b" ++ ",".intercalate (compactMembers members) ++ "\x7d"

/-- The items of an array, each on one line. -/
def compactItems : List Json → List String
  | [] => []
  | j :: js => compact j :: compactItems js

/-- The members of an object, each on one line. -/
def compactMembers : List (String × Json) → List String
  | [] => []
  | (name, j) :: ms => (escaped name ++ ":" ++ compact j) :: compactMembers ms

end

/-- The start of a line at a given level. -/
def indent (level : Nat) : String :=
  "\n" ++ String.ofList (List.replicate (2 * level) ' ')

/-- Items between brackets, one a line; nothing stands between the brackets of an empty list. -/
def block (left right : String) (level : Nat) (items : List String) : String :=
  if items.isEmpty then left ++ right
  else left ++ indent (level + 1) ++ ("," ++ indent (level + 1)).intercalate items
    ++ indent level ++ right

mutual

/-- A value spread over lines, its first line being at the given level already. -/
def prettyAt (level : Nat) : Json → String
  | .arr items => block "[" "]" level (prettyItems (level + 1) items)
  | .obj members => block "\x7b" "\x7d" level (prettyMembers (level + 1) members)
  | .null => "null"
  | .bool b => if b then "true" else "false"
  | .int n => toString n
  | .float x => floatText x
  | .str s => escaped s

/-- The items of an array, spread over lines. -/
def prettyItems (level : Nat) : List Json → List String
  | [] => []
  | j :: js => prettyAt level j :: prettyItems level js

/-- The members of an object, spread over lines. -/
def prettyMembers (level : Nat) : List (String × Json) → List String
  | [] => []
  | (name, j) :: ms => (escaped name ++ ": " ++ prettyAt level j) :: prettyMembers level ms

end

/-- A value spread over lines. -/
def pretty (j : Json) : String :=
  prettyAt 0 j

end MeasureSql.Json
