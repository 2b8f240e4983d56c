import MeasureSql.Text.Blank
import MeasureSql.Text.Digit
import MeasureSql.Text.WordSearch
import MeasureSql.Validation.Issue

/-!
# Suspicious wording

Signs in SQL text that something is missing or was not meant, found without parsing it.

## Main definitions

* `endsWithComma`, `endsWithConnective` — the text stops too early.
* `equatesNull` — a comparison that is never true.
* `dividesByVariable`, `guardsDivision` — a division that may be by zero.
* `endingIssues`, `habitIssues` — what is said of them.
-/

namespace MeasureSql.Validation

open Text

/-- The characters from the last one that is not blank, last first. -/
def lastFirst (sql : String) : List Char :=
  sql.toList.reverse.dropWhile isBlank

/-- Is a comma the last character that is not blank? -/
def endsWithComma (sql : String) : Bool :=
  (lastFirst sql).head? == some ','

/-- Is `AND` or `OR` in any case the last word, with nothing but blanks after it? -/
def endsWithConnective (sql : String) : Bool :=
  ["DNA", "RO"].any fun backwards => startsWithWord backwards.toList (lastFirst sql)

/-- Does a mark stand somewhere, with blanks and then a text that passes a test after it? -/
def holdsBefore (mark : Char) (test : List Char → Bool) : List Char → Bool
  | [] => false
  | c :: rest => (c == mark && test (rest.dropWhile isBlank)) || holdsBefore mark test rest

/-- Is something compared with `NULL` by an equality sign? -/
def equatesNull (sql : String) : Bool :=
  holdsBefore '=' (startsWithWord "NULL".toList) sql.toList

/-- May the character begin a divisor that is no numeral? -/
def beginsVariable (c : Char) : Bool :=
  !isDecimalDigit c && c != '.'

/-- Is something divided by what is no numeral? -/
def dividesByVariable (sql : String) : Bool :=
  holdsBefore '/' (fun rest => (rest.head?.map beginsVariable).getD false) sql.toList

/-- Is there a word that keeps a zero out of a divisor? -/
def guardsDivision (sql : String) : Bool :=
  ["NULLIF", "CASE"].any fun word => holdsWord word.toList false sql.toList

/-- The issues with a text that stops too early. -/
def endingIssues (sql : String) : List Issue :=
  (if endsWithComma sql then
    [{ severity := .error, message := "Trailing comma at end of expression",
       suggestion := some "Remove the trailing comma" }]
  else []) ++
  (if endsWithConnective sql then
    [{ severity := .error, message := "Incomplete condition: trailing AND/OR" }]
  else [])

/-- The issues with a text that probably does not do what was meant. -/
def habitIssues (sql : String) : List Issue :=
  (if equatesNull sql then
    [{ severity := .warning, message := "Using = NULL instead of IS NULL",
       suggestion := some "Use 'IS NULL' or 'IS NOT NULL' for null comparisons" }]
  else []) ++
  (if dividesByVariable sql && !guardsDivision sql then
    [{ severity := .info, message := "Division detected; ensure the denominator cannot be zero",
       suggestion := some "Consider NULLIF(denominator, 0) or a CASE WHEN guard" }]
  else [])

/-- Does a text hold two dashes in a row? -/
def holdsLineComment : List Char → Bool
  | '-' :: '-' :: _ => true
  | _ :: rest => holdsLineComment rest
  | [] => false

/-- The issues with comments that run to the end of a line, where lines are about to be joined. -/
def commentIssues (sql : String) : List Issue :=
  if holdsLineComment sql.toList then
    [{ severity := .warning, message := "Line comment (--) may hide part of the expression" }]
  else []

end MeasureSql.Validation
