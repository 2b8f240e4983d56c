import MeasureSql.Dax.Expr
import MeasureSql.Number.Numeral

/-!
# What a spelling stands for

The value behind the spelling of a literal or a name: quotes and brackets are dropped, escapes are
resolved, and digits become a number.

## Main definitions

* `stripDelimiters` — a spelling without its first and last character.
* `unescape` — backslash escapes and doubled marks resolved.
* `readIntegerLiteral?`, `readFloatLiteral?` — the literal that a numeral stands for.
-/

namespace MeasureSql.Dax

/-- A spelling without its first and last character. -/
def stripDelimiters (lexeme : String) : String :=
  String.ofList (lexeme.toList.drop 1).dropLast

/-- The character that a backslash and a character stand for. -/
def escapeValue : Char → Char
  | 'n' => '\n'
  | 't' => '\t'
  | c => c

/-- Resolves backslash escapes and doubled marks; a backslash at the end stands for itself. -/
def unescapeChars (mark : Char) : List Char → List Char
  | [] => []
  | c :: cs =>
    if c == '\\' then match cs with
      | [] => ['\\']
      | d :: rest => escapeValue d :: unescapeChars mark rest
    else if c == mark then match cs with
      | [] => [mark]
      | d :: rest =>
        if d == mark then mark :: unescapeChars mark rest
        else mark :: unescapeChars mark (d :: rest)
    else c :: unescapeChars mark cs

/-- Resolves backslash escapes and doubled marks. -/
def unescape (mark : Char) (body : String) : String :=
  String.ofList (unescapeChars mark body.toList)

/-- A whole number, or a float when the numeral has an exponent or exceeds 64 bits. -/
def readIntegerLiteral? (lexeme : String) : Option Literal :=
  let cs := lexeme.toList
  let whole := if cs.any (fun c => c == 'e' || c == 'E') then none else readInt64? cs
  match whole with
  | some n => some (.integer n)
  | none => (Double.read? lexeme).map .float

/-- A float. -/
def readFloatLiteral? (lexeme : String) : Option Literal :=
  (Double.read? lexeme).map .float

end MeasureSql.Dax
