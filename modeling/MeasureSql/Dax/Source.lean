import MeasureSql.Dax.Parser
import MeasureSql.Dax.Printer

/-!
# Source text

From a source text to a syntax tree.  Faults do not abort: the outcome carries the tree as far as it
is known, the tokens, and what went wrong.

## Main definitions

* `ParseFailure` — why a text was not accepted.
* `ParseOutcome` — tree, tokens and failure of one text.
* `parse`, `parseMeasure`, `parseSource` — a text as an expression, as a definition, or as
  whichever it is.
-/

namespace MeasureSql.Dax

/-- Why a text was not accepted. -/
inductive ParseFailure where
  | lexical (error : LexError)
  | grammatical (error : ParseError)
  | trailing (lexeme : String)
  deriving DecidableEq, Repr

/-- The wording of a failure. -/
def ParseFailure.message : ParseFailure → String
  | .lexical error => error.message
  | .grammatical error => error.message
  | .trailing lexeme => "Unexpected token after expression: " ++ lexeme

/-- The outcome of parsing a text.  With a failure the tree is a blank, or, when tokens were left
over, the tree of what came before them. -/
structure ParseOutcome where
  source : String
  tree : Expr
  tokens : List Token
  failure : Option ParseFailure
  deriving Repr

namespace ParseOutcome

/-- Was the whole text accepted? -/
def success (o : ParseOutcome) : Bool :=
  o.failure.isNone

/-- What went wrong, in words. -/
def errors (o : ParseOutcome) : List String :=
  o.failure.toList.map ParseFailure.message

/-- The outcome as a JSON value. -/
def toJson (o : ParseOutcome) : Json :=
  .obj [("success", .bool o.success), ("source", .str o.source), ("ast", o.tree.toJson),
    ("token_count", .nat o.tokens.length), ("errors", .strings o.errors)]

end ParseOutcome

/-- Parses a text from one of the starting points. -/
def parseWith (start : TokenStream → Except ParseError (Expr × List Token)) (source : String) :
    ParseOutcome :=
  match tokenize source with
  | .error e => ⟨source, .blank, [], some (.lexical e)⟩
  | .ok tokens => match start (.ofTokens tokens) with
    | .error e => ⟨source, .blank, tokens, some (.grammatical e)⟩
    | .ok (tree, []) => ⟨source, tree, tokens, none⟩
    | .ok (tree, t :: _) => ⟨source, tree, tokens, some (.trailing t.lexeme)⟩

/-- A text as an expression. -/
def parse (source : String) : ParseOutcome :=
  parseWith TokenStream.parseExpression source

/-- A text as a definition `[Name] = expression`. -/
def parseMeasure (source : String) : ParseOutcome :=
  parseWith TokenStream.parseMeasure source

/-- Do the tokens begin like a definition? -/
def beginsMeasure : List Token → Bool
  | name :: eq :: _ => name.kind == .columnRef && eq.kind == .eq
  | _ => false

/-- A text as a definition if it begins like one, and as an expression otherwise. -/
def parseSource (source : String) : ParseOutcome :=
  let asExpression := parse source
  if beginsMeasure asExpression.tokens then parseMeasure source else asExpression

end MeasureSql.Dax
