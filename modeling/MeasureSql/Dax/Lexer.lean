import MeasureSql.Dax.Keyword
import MeasureSql.Text.Blank
import MeasureSql.Text.Identifier

/-!
# Tokenizing

A source text is cut into pieces from left to right.  A piece is either insignificant (blanks, a
line comment, a closed block comment) or a token, and the pieces together are the source.  At each
place the first rule that applies wins: insignificant text, a quoted text, a quoted name, a name in
brackets, a number, a two-character operator, a single character, a word.

## Main definitions

* `Scan` — what a rule takes from the front of the text, and what it leaves.
* `nextPiece?` — the first piece of a text.
* `tokenize` — all tokens of a text, or the place where no rule applies.
-/

namespace MeasureSql.Dax

/-- What a rule took from the front of a text, and what it left. -/
structure Scan where
  taken : List Char
  rest : List Char
  deriving DecidableEq, Repr

namespace Scan

/-- The same scan after characters that were taken before it. -/
def after (front : List Char) (s : Scan) : Scan :=
  ⟨front ++ s.taken, s.rest⟩

/-- Takes characters as long as they satisfy a condition. -/
def takeWhile (p : Char → Bool) (cs : List Char) : Scan :=
  ⟨cs.takeWhile p, cs.dropWhile p⟩

end Scan

/-- The rest of a quoted text, up to and with its closing mark.  A backslash takes the next
character with it, and a mark that is followed by another one does not close. -/
def scanQuoted? (mark : Char) : List Char → Option Scan
  | [] => none
  | c :: cs =>
    if c == '\\' then match cs with
      | [] => none
      | d :: rest => (scanQuoted? mark rest).map (Scan.after [c, d])
    else if c == mark then match cs with
      | [] => some ⟨[c], []⟩
      | d :: rest =>
        if d == mark then (scanQuoted? mark rest).map (Scan.after [c, d]) else some ⟨[c], cs⟩
    else (scanQuoted? mark cs).map (Scan.after [c])

/-- The rest of a block comment, up to and with its closing mark. -/
def scanBlockComment? : List Char → Option Scan
  | [] => none
  | c :: cs => match c, cs with
    | '*', '/' :: rest => some ⟨['*', '/'], rest⟩
    | _, _ => (scanBlockComment? cs).map (Scan.after [c])

/-- A comment: to the end of the line, or between its marks. -/
def scanComment? : List Char → Option Scan
  | '/' :: '/' :: cs => some ((Scan.takeWhile (· != '\n') cs).after ['/', '/'])
  | '-' :: '-' :: cs => some ((Scan.takeWhile (· != '\n') cs).after ['-', '-'])
  | '/' :: '*' :: cs => (scanBlockComment? cs).map (Scan.after ['/', '*'])
  | _ => none

/-- A name in brackets that is not empty. -/
def scanBracketed? (cs : List Char) : Option Scan :=
  match cs with
  | '[' :: inner =>
    let name := Scan.takeWhile (· != ']') inner
    match name.rest with
    | ']' :: rest => if name.taken.isEmpty then none else some ⟨'[' :: name.taken ++ [']'], rest⟩
    | _ => none
  | _ => none

/-- One digit or more. -/
def scanDigits? (cs : List Char) : Option Scan :=
  let s := Scan.takeWhile Char.isDigit cs
  if s.taken.isEmpty then none else some s

/-- The exponent of a number: `e`, an optional sign, digits. -/
def scanExponent? : List Char → Option Scan
  | c :: cs =>
    if c == 'e' || c == 'E' then match cs with
      | '+' :: rest => (scanDigits? rest).map (Scan.after [c, '+'])
      | '-' :: rest => (scanDigits? rest).map (Scan.after [c, '-'])
      | _ => (scanDigits? cs).map (Scan.after [c])
    else none
  | [] => none

/-- A scan with the exponent that follows it, if one does. -/
def withExponent (s : Scan) : Scan :=
  match scanExponent? s.rest with
  | some e => e.after s.taken
  | none => s

/-- A number; it is a float when digits stand on both sides of a point. -/
def scanNumber? (cs : List Char) : Option (TokenKind × Scan) :=
  match scanDigits? cs with
  | none => none
  | some whole => match whole.rest with
    | '.' :: rest => match scanDigits? rest with
      | some fraction => some (.float, withExponent (fraction.after (whole.taken ++ ['.'])))
      | none => some (.integer, withExponent whole)
    | _ => some (.integer, withExponent whole)

/-- An operator of two characters. -/
def scanDoubleMark? : List Char → Option (TokenKind × Scan)
  | '<' :: '>' :: cs => some (.notEq, ⟨['<', '>'], cs⟩)
  | '<' :: '=' :: cs => some (.ltEq, ⟨['<', '='], cs⟩)
  | '>' :: '=' :: cs => some (.gtEq, ⟨['>', '='], cs⟩)
  | '&' :: '&' :: cs => some (.and, ⟨['&', '&'], cs⟩)
  | '|' :: '|' :: cs => some (.or, ⟨['|', '|'], cs⟩)
  | _ => none

/-- The kind of a character that is a token by itself. -/
def markKind? : Char → Option TokenKind
  | '+' => some .plus
  | '-' => some .minus
  | '*' => some .star
  | '/' => some .slash
  | '^' => some .caret
  | '=' => some .eq
  | '<' => some .lt
  | '>' => some .gt
  | '&' => some .ampersand
  | '(' => some .lParen
  | ')' => some .rParen
  | '[' => some .lBracket
  | ']' => some .rBracket
  | ',' => some .comma
  | ';' => some .semicolon
  | '.' => some .dot
  | _ => none

/-- A single character that is a token. -/
def scanMark? : List Char → Option (TokenKind × Scan)
  | c :: cs => (markKind? c).map (·, ⟨[c], cs⟩)
  | [] => none

/-- A word: a letter or an underscore, then letters, digits and underscores of any script. -/
def scanWord? : List Char → Option (TokenKind × Scan)
  | c :: cs =>
    if Text.isIdentStart c || c == '_' then
      let s := (Scan.takeWhile Text.isIdentPart cs).after [c]
      some (.ofWord (String.ofList s.taken), s)
    else none
  | [] => none

/-- The token at the front of a text. -/
def nextToken? (cs : List Char) : Option (TokenKind × Scan) :=
  let quoted : Option (TokenKind × Scan) := match cs with
    | '"' :: rest => (scanQuoted? '"' rest).map fun s => (.string, s.after ['"'])
    | '\x27' :: rest => (scanQuoted? '\x27' rest).map fun s => (.quotedIdentifier, s.after ['\x27'])
    | _ => none
  quoted <|> (scanBracketed? cs).map (TokenKind.columnRef, ·) <|> scanNumber? cs
    <|> scanDoubleMark? cs <|> scanMark? cs <|> scanWord? cs

/-- Insignificant text at the front: blanks or a comment. -/
def nextTrivia? (cs : List Char) : Option Scan :=
  let blanks := Scan.takeWhile Text.isBlank cs
  if blanks.taken.isEmpty then scanComment? cs else some blanks

/-- The piece at the front of a text, with the kind of token it makes if it is significant. -/
def nextPiece? (cs : List Char) : Option (Option TokenKind × Scan) :=
  match nextTrivia? cs with
  | some s => some (none, s)
  | none => (nextToken? cs).map fun (kind, s) => (some kind, s)

/-- No rule applies at a place; `found` is the character there. -/
structure LexError where
  found : Char
  position : Position
  deriving DecidableEq, Repr

namespace LexError

/-- The whole message. -/
def message (e : LexError) : String :=
  "Lexer error at line " ++ toString e.position.line ++ ", column " ++ toString e.position.column
    ++ ": Unexpected character: " ++ Text.quotedChar e.found

end LexError

/-- The tokens of the characters that are left, the first of which stands at `p`.  Every piece takes
at least one character, so the number of characters bounds the number of pieces. -/
def tokensFrom : Nat → Position → List Char → Except LexError (List Token)
  | _, p, [] => .ok [.eof p]
  | 0, p, c :: _ => .error ⟨c, p⟩
  | fuel + 1, p, c :: cs => match nextPiece? (c :: cs) with
    | none => .error ⟨c, p⟩
    | some (kind?, s) => do
      let tokens ← tokensFrom fuel (p.advance s.taken) s.rest
      match kind? with
      | none => .ok tokens
      | some kind => .ok (⟨kind, String.ofList s.taken, p⟩ :: tokens)

/-- All tokens of a text, ending with the end of input. -/
def tokenize (source : String) : Except LexError (List Token) :=
  tokensFrom source.toList.length .start source.toList

end MeasureSql.Dax
