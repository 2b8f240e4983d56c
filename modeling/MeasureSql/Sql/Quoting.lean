import MeasureSql.Text.Quoted

/-!
# Quoting

A quoted text stands between two marks, and a closing mark inside it is written twice.

## Main definitions

* `Sql.quoteBetween` — a text between two marks.
-/

namespace MeasureSql.Sql

/-- A text between two marks, the closing one written twice inside. -/
def quoteBetween (left right : Char) (s : String) : String :=
  String.ofList (left :: Text.doubled (· == right) s.toList ++ [right])

/-- Between double quotes. -/
def quoteDouble (s : String) : String := quoteBetween '"' '"' s

/-- Between backticks. -/
def quoteBacktick (s : String) : String := quoteBetween '\x60' '\x60' s

/-- Between brackets. -/
def quoteBracket (s : String) : String := quoteBetween '[' ']' s

/-- Between single quotes. -/
def quoteSingle (s : String) : String := quoteBetween '\x27' '\x27' s

end MeasureSql.Sql
