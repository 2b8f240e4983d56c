import MeasureSql.Text.Quoted

/-!
# Tokens

The vocabulary of the expression language: kinds of tokens, and tokens with their spelling and the
place where they stand.

## Main definitions

* `TokenKind` — what a token is, with its name and the label used in listings.
* `Position` — a place in a text, counted in lines, characters and bytes.
* `Token` — a spelling with its kind and position.
-/

namespace MeasureSql

/-- A place in a text: line and column from one, the column in characters, the offset in bytes. -/
structure Position where
  line : Nat
  column : Nat
  offset : Nat
  deriving DecidableEq, Repr, Inhabited

namespace Position

/-- The beginning of a text. -/
def start : Position := ⟨1, 1, 0⟩

/-- The place after one more character. -/
def step (p : Position) (c : Char) : Position :=
  if c == '\n' then ⟨p.line + 1, 1, p.offset + c.utf8Size⟩
  else ⟨p.line, p.column + 1, p.offset + c.utf8Size⟩

/-- The place after more characters. -/
def advance (p : Position) (cs : List Char) : Position :=
  cs.foldl step p

end Position

namespace Dax

/-- The kinds of tokens. -/
inductive TokenKind where
  | integer
  | float
  | string
  /-- A bare word that is no keyword. -/
  | identifier
  /-- A name in brackets. -/
  | columnRef
  /-- A name in single quotes. -/
  | quotedIdentifier
  /-- A known word, mostly a function name, without a kind of its own. -/
  | keyword
  | varWord
  | returnWord
  | trueWord
  | falseWord
  | blankWord
  | plus
  | minus
  | star
  | slash
  | caret
  | eq
  | notEq
  | lt
  | ltEq
  | gt
  | gtEq
  | and
  | or
  | not
  | ampersand
  | lParen
  | rParen
  | lBracket
  | rBracket
  | comma
  | semicolon
  | dot
  | eof
  deriving DecidableEq, Repr, Inhabited

namespace TokenKind

/-- All kinds in order, each with its name and its label. -/
def table : List (TokenKind × String × String) :=
  [(.integer, "Integer", "integer"), (.float, "Float", "float"), (.string, "String", "string"),
    (.identifier, "Identifier", "identifier"), (.columnRef, "ColumnRef", "column reference"),
    (.quotedIdentifier, "QuotedIdentifier", "quoted identifier"),
    (.keyword, "Keyword", "keyword"), (.varWord, "Var", "VAR"), (.returnWord, "Return", "RETURN"),
    (.trueWord, "True", "TRUE"), (.falseWord, "False", "FALSE"), (.blankWord, "Blank", "BLANK"),
    (.plus, "Plus", "+"), (.minus, "Minus", "-"), (.star, "Star", "*"), (.slash, "Slash", "/"),
    (.caret, "Caret", "^"), (.eq, "Eq", "="), (.notEq, "NotEq", "<>"), (.lt, "Lt", "<"),
    (.ltEq, "LtEq", "<="), (.gt, "Gt", ">"), (.gtEq, "GtEq", ">="), (.and, "And", "&&"),
    (.or, "Or", "||"), (.not, "Not", "NOT"), (.ampersand, "Ampersand", "&"),
    (.lParen, "LParen", "("), (.rParen, "RParen", ")"), (.lBracket, "LBracket", "["),
    (.rBracket, "RBracket", "]"), (.comma, "Comma", ","), (.semicolon, "Semicolon", ";"),
    (.dot, "Dot", "."), (.eof, "Eof", "end of input")]

/-- All kinds in order. -/
def all : List TokenKind :=
  table.map (·.1)

/-- The name of a kind. -/
def name (k : TokenKind) : String :=
  ((table.find? (·.1 == k)).map (·.2.1)).getD ""

/-- How a kind is called in listings. -/
def label (k : TokenKind) : String :=
  ((table.find? (·.1 == k)).map (·.2.2)).getD ""

/-- The kind of that name. -/
def ofName? (s : String) : Option TokenKind :=
  (table.find? (·.2.1 == s)).map (·.1)

/-- Is it an operator? -/
def isOperator : TokenKind → Bool
  | .plus | .minus | .star | .slash | .caret | .eq | .notEq | .lt | .ltEq | .gt | .gtEq
  | .and | .or | .not | .ampersand => true
  | _ => false

/-- Is it a literal value? -/
def isLiteral : TokenKind → Bool
  | .integer | .float | .string | .trueWord | .falseWord => true
  | _ => false

end TokenKind

/-- A token: its kind, its spelling in the source, and where it begins. -/
structure Token where
  kind : TokenKind
  lexeme : String
  position : Position
  deriving DecidableEq, Repr, Inhabited

namespace Token

/-- The end of the input at a given place. -/
def eof (p : Position) : Token := ⟨.eof, "", p⟩

/-- A token in one line of a listing. -/
def display (t : Token) : String :=
  "Token(" ++ t.kind.name ++ ", " ++ Text.quoted t.lexeme ++ ", "
    ++ toString t.position.line ++ ":" ++ toString t.position.column ++ ")"

end Token

end Dax

end MeasureSql
