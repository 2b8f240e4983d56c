import MeasureSql.Sql.Grammar.Query

/-!
# Acceptance

Whether a text is SQL in a dialect.

## Main definitions

* `accepts` — is the text a list of queries?
* `selecting` — an expression as a query.
-/

namespace MeasureSql.Sql

/-- How deep phrases may nest. -/
def nestingLimit : Nat := 50

/-- A bound for the phrases and repetitions that contain each other: between two lexemes there are
never more than a few dozen. -/
def grammarFuel (ls : List Lexeme) : Nat :=
  64 * (ls.length + 2)

/-- Is the text a list of queries in the dialect, and nothing else? -/
def accepts (d : Dialect) (sql : String) : Bool :=
  match lexemes? d sql with
  | none => false
  | some ls =>
    (Rule.use Phrase.statements).run (Grammar.rules d) (grammarFuel ls) nestingLimit ls == .rest []

/-- The query that selects an expression, perhaps with an alias. -/
def selecting (expression : String) : String :=
  "SELECT " ++ expression

end MeasureSql.Sql
