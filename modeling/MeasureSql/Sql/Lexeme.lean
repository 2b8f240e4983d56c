import MeasureSql.Sql.Dialect
import MeasureSql.Text.Alphabetic
import MeasureSql.Text.Blank

/-!
# Lexemes of SQL

SQL text cut into what its grammar is about: words, quoted names, numbers, quoted texts, other
literals and marks.  Blanks and comments are left out.  What a word consists of, which quotes
enclose a name and what begins a comment differ between dialects.

## Main definitions

* `Lexeme` — a word, a literal or a mark; the grammar asks no more of them than this.
* `Lexicon` — the choices of a dialect.
* `lexemes?` — the lexemes of a text, unless a quote or a comment is left open.
-/

namespace MeasureSql.Sql

/-- A word in capitals, a name in quotes, a number, a text in single quotes, a literal of another
kind, a mark, or an operator of the user's own. -/
inductive Lexeme where
  | word (capitals : String)
  | name
  | number
  | text
  | literal
  | mark (sign : String)
  | operator
  deriving DecidableEq, Repr, Inhabited

/-- The choices of a dialect about the form of lexemes. -/
structure Lexicon where
  /-- May a name without quotes begin with the character? -/
  beginsName : Char → Bool
  /-- May it go on with the character? -/
  continuesName : Char → Bool
  /-- The quotes around names, opening and closing. -/
  nameQuotes : List (Char × Char)
  /-- Does a backslash in a text take the next character with it? -/
  backslashEscapes : Bool := false
  /-- What begins a comment to the end of the line. -/
  lineComments : List String := ["--"]
  /-- Does a carriage return end such a comment, too? -/
  returnEndsComment : Bool := false
  /-- The letters that make another literal of a text right after them. -/
  literalLetters : List Char := ['N', 'X']
  /-- Marks of the dialect besides the common ones. -/
  marks : List String := []
  /-- Do operator characters after certain marks make one operator with them? -/
  ownOperators : Bool := false

/-- A letter of any script or an underscore. -/
def isNameLetter (c : Char) : Bool :=
  Text.isAlphabetic c || c == '_'

/-- The choices of each dialect.  BigQuery is read by rules that suit most dialects at once. -/
def lexicon : Dialect → Lexicon
  | .snowflake =>
    { beginsName := fun c => c.isAlpha || c == '_'
      continuesName := fun c => c.isAlphanum || c == '_' || c == '$'
      nameQuotes := [('"', '"'), ('\x60', '\x60')]
      backslashEscapes := true
      lineComments := ["--", "//", "#"] }
  | .postgres =>
    { beginsName := isNameLetter
      continuesName := fun c => isNameLetter c || c.isDigit || c == '$'
      nameQuotes := [('"', '"')]
      returnEndsComment := true
      literalLetters := ['N', 'X', 'E', 'B']
      ownOperators := true }
  | .duckdb =>
    { beginsName := isNameLetter
      continuesName := fun c => isNameLetter c || c.isDigit || c == '$'
      nameQuotes := [('"', '"'), ('\x60', '\x60')]
      marks := ["//"] }
  | .bigquery =>
    { beginsName := fun c => isNameLetter c || c == '#' || c == '@'
      continuesName := fun c => isNameLetter c || c.isDigit || ['#', '@', '$'].contains c
      nameQuotes := [('"', '"'), ('\x60', '\x60')]
      literalLetters := ['N', 'X', 'E', 'B', 'R']
      marks := ["//"] }
  | .tsql =>
    { beginsName := fun c => isNameLetter c || c == '#' || c == '@'
      continuesName := fun c => isNameLetter c || c.isDigit || ['#', '@', '$'].contains c
      nameQuotes := [('"', '"'), ('[', ']')] }

/-- The marks of more than one character, longer ones first. -/
def longMarks : List String :=
  ["->>", "||/", "<=>", "#>>", "->", "||", "|/", "=>", "==", "!=", "!!", "<=", "<>", "<<", "<@",
   ">=", ">>", "::", ":=", "&&", "^@", "@>", "@@", "@?", "#>", "#-", "~*", "~~"]

/-- The characters of which operators of the user's own consist. -/
def isOperatorChar (c : Char) : Bool :=
  "+-*/<>=~!@#%^&|\x60?".toList.contains c

/-- The marks that operator characters may lengthen begin with one of these. -/
def beginsOwnOperator (c : Char) : Bool :=
  "-%|<>&~#@".toList.contains c

/-- What follows the closing quote; one that is doubled does not close. -/
def afterQuoted? (close : Char) (escapes : Bool) : List Char → Option (List Char)
  | [] => none
  | c :: rest =>
    if escapes && c == '\\' then match rest with
      | [] => none
      | _ :: rest => afterQuoted? close escapes rest
    else if c == close then match rest with
      | [] => some []
      | d :: more => if d == close then afterQuoted? close escapes more else some rest
    else afterQuoted? close escapes rest

/-- What follows a block comment, in which others may be nested. -/
def afterBlockComment? (depth : Nat) : List Char → Option (List Char)
  | [] => none
  | '*' :: '/' :: rest => match depth with
    | 0 => some rest
    | outer + 1 => afterBlockComment? outer rest
  | '/' :: '*' :: rest => afterBlockComment? (depth + 1) rest
  | _ :: rest => afterBlockComment? depth rest

/-- What follows an exponent, if one stands here. -/
def afterExponent (cs : List Char) : List Char :=
  match cs with
  | e :: rest =>
    if e == 'e' || e == 'E' then
      let digits := match rest with
        | '+' :: more => more
        | '-' :: more => more
        | more => more
      if (digits.head?.map Char.isDigit).getD false then digits.dropWhile Char.isDigit else cs
    else cs
  | [] => []

/-- A number, or the point that stands where one might begin. -/
def numberOrPoint (cs : List Char) : Lexeme × List Char :=
  let rest := cs.dropWhile Char.isDigit
  match cs.takeWhile Char.isDigit, rest with
  | ['0'], 'x' :: more =>
    (.literal, more.dropWhile fun c => c.isDigit || ('a' ≤ c.toLower && c.toLower ≤ 'f'))
  | whole, '.' :: more =>
    let fraction := more.takeWhile Char.isDigit
    if whole.isEmpty && fraction.isEmpty then (.mark ".", more)
    else (.number, afterSuffix (afterExponent (more.dropWhile Char.isDigit)))
  | _, rest => (.number, afterSuffix (afterExponent rest))
where
  /-- A capital L may end a number. -/
  afterSuffix : List Char → List Char
    | 'L' :: rest => rest
    | rest => rest

/-- The mark at the head of a text that is not empty. -/
def markAt (x : Lexicon) (c : Char) (rest : List Char) : Lexeme × List Char :=
  let cs := c :: rest
  let long := (x.marks ++ longMarks).find? fun m => m.toList.isPrefixOf cs
  let sign := long.getD (String.singleton c)
  let after := cs.drop sign.length
  if x.ownOperators && beginsOwnOperator c && (after.head?.map isOperatorChar).getD false then
    (.operator, after.dropWhile isOperatorChar)
  else (.mark sign, after)

/-- Does the letter make another literal of a text right after it?  The letter E does in every
dialect, though not every grammar has a use for the literal. -/
def isLiteralLetter (x : Lexicon) (c : Char) : Bool :=
  c.toUpper == 'E' || x.literalLetters.contains c.toUpper

/-- Does a backslash in the text after the letter take the next character with it? -/
def hasEscapes (letter : Char) : Bool :=
  letter.toUpper == 'E' || letter.toUpper == 'N'

/-- What a letter makes of the text after it. -/
def letteredLiteral (x : Lexicon) (letter : Char) : Lexeme :=
  if x.literalLetters.contains letter.toUpper then .literal else .mark "E"

/-- Is the text a line comment from here on? -/
def atLineComment (x : Lexicon) (cs : List Char) : Bool :=
  x.lineComments.any fun m => m.toList.isPrefixOf cs

/-- The first lexeme of a text that is not empty, or nothing for a blank or a comment, and what
follows it. -/
def nextLexeme? (x : Lexicon) (c : Char) (rest : List Char) : Option (Option Lexeme × List Char) :=
  let cs := c :: rest
  if Text.isBlank c then some (none, rest)
  else if atLineComment x cs then
    some (none, cs.dropWhile fun d => !(d == '\n' || (x.returnEndsComment && d == '\r')))
  else if "/*".toList.isPrefixOf cs then
    (afterBlockComment? 0 (rest.drop 1)).map (none, ·)
  else if isLiteralLetter x c && rest.head? == some '\x27' then
    (afterQuoted? '\x27' (x.backslashEscapes || hasEscapes c) (rest.drop 1)).map
      (some (letteredLiteral x c), ·)
  else if x.beginsName c then
    some (some (.word (Text.upper (String.ofList (cs.takeWhile x.continuesName)))),
      cs.dropWhile x.continuesName)
  else if c == '\x27' then (afterQuoted? c x.backslashEscapes rest).map (some .text, ·)
  else match x.nameQuotes.lookup c with
    | some close => (afterQuoted? close false rest).map (some .name, ·)
    | none =>
      if c.isDigit || c == '.' then
        let (lexeme, rest) := numberOrPoint cs
        some (some lexeme, rest)
      else if c == '$' then
        some (some .literal, rest.dropWhile fun d => d.isAlphanum || d == '_')
      else
        let (lexeme, rest) := markAt x c rest
        some (some lexeme, rest)

/-- The lexemes of a text; the length of the text bounds their number. -/
def lexemesFrom? (x : Lexicon) : Nat → List Char → Option (List Lexeme)
  | _, [] => some []
  | 0, _ :: _ => none
  | fuel + 1, c :: rest => do
    let (lexeme, rest) ← nextLexeme? x c rest
    let others ← lexemesFrom? x fuel rest
    some (lexeme.toList ++ others)

/-- The lexemes of a text, unless a quote or a comment is left open. -/
def lexemes? (d : Dialect) (sql : String) : Option (List Lexeme) :=
  lexemesFrom? (lexicon d) sql.length sql.toList

end MeasureSql.Sql
