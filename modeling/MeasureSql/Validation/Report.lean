import MeasureSql.Sql.Acceptance
import MeasureSql.Validation.Balance
import MeasureSql.Validation.Wording

/-!
# Validation

What there is to say about SQL text, from its wording, from the grammar of its dialect and from a
trial run.  Runs of blanks are collapsed before anything is looked at, and only an error makes the
text invalid: what the grammar refuses and what fails when run is a warning.

## Main definitions

* `normalize` — a text with one space for each run of blanks, and none at its ends.
* `ValidationOptions`, `TrialOutcome`, `Validator` — what to check, and with what.
* `ValidationReport` — the issues, and what a trial run returned.
* `Validator.checkExpression`, `Validator.check` — the checks.
-/

namespace MeasureSql

namespace Validation

/-- A text with one space for each run of blanks, and none at its ends. -/
def normalize (sql : String) : String :=
  " ".intercalate (Text.words sql)

/-- The issues with the wording of a normalized text. -/
def lexicalIssues (sql : String) : List Issue :=
  if (Text.trim sql).isEmpty then [{ severity := .error, message := "Empty SQL expression" }]
  else parenIssues sql ++ quoteIssues sql ++ endingIssues sql ++ habitIssues sql

/-- Is the text a statement, rather than an expression? -/
def isStatement (sql : String) : Bool :=
  let start := (Text.upper (Text.trim sql)).toList
  "SELECT".toList.isPrefixOf start || "WITH".toList.isPrefixOf start

/-- The issues that a parser finds with a text in a dialect.  An expression is parsed as the query
that selects it. -/
def grammarIssues (accepts : Dialect → String → Bool) (d : Dialect) (sql : String) : List Issue :=
  if accepts d (if isStatement sql then sql else Sql.selecting sql) then []
  else [{ severity := .warning, message := d.name ++ " parser rejected the SQL" }]

end Validation

/-- What to check besides the wording: the grammar, and a trial run that returns some rows. -/
structure ValidationOptions where
  syntaxCheck : Bool := true
  execute : Bool := false
  rowLimit : Nat := 1
  deriving DecidableEq, Repr

/-- What comes of a trial run. -/
structure TrialOutcome where
  rows : Option Json := none
  elapsed : Option Double := none
  error : Option String := none

/-- What is known about a text after its checks. -/
structure ValidationReport where
  issues : List Issue
  normalized : String
  rows : Option Json := none
  elapsed : Option Double := none

namespace ValidationReport

/-- Is there no error? -/
def isValid (r : ValidationReport) : Bool :=
  !r.issues.any Issue.isError

/-- How many issues have a severity. -/
def count (r : ValidationReport) (severity : Severity) : Nat :=
  r.issues.countP (·.severity == severity)

/-- A report as a JSON value. -/
def toJson (r : ValidationReport) : Json :=
  .obj [("is_valid", .bool r.isValid), ("issues", .arr (r.issues.map Issue.toJson)),
    ("sql_normalized", .str r.normalized), ("execution_time_ms", .ofOption .float r.elapsed),
    ("error_count", .nat (r.count .error)), ("warning_count", .nat (r.count .warning))]

end ValidationReport

/-- What texts are checked for, the parser that takes queries in a dialect or refuses them, and the
warehouse that runs a trial of a text and a number of rows. -/
structure Validator where
  dialect : Dialect := .snowflake
  accepts : Dialect → String → Bool := Sql.accepts
  backend : Option (String → Nat → TrialOutcome) := none

namespace Validator

open Validation

/-- Checks the wording of an expression. -/
def checkExpression (sql : String) : ValidationReport :=
  { issues := lexicalIssues (normalize sql), normalized := normalize sql }

/-- The query that a trial run hands to the warehouse. -/
def trialQuery (v : Validator) (sql : String) (rowLimit : Nat) : String :=
  v.dialect.limited sql rowLimit

/-- The queries that the warehouse gets, with the number of rows. -/
def trials (v : Validator) (sql : String) (o : ValidationOptions) : List (String × Nat) :=
  if o.execute && v.backend.isSome then [(v.trialQuery (normalize sql) o.rowLimit, o.rowLimit)]
  else []

/-- What is said of a query that failed when run. -/
def failureIssue (query error : String) : Issue :=
  { severity := .warning, message := "Execution failed: " ++ error, location := some query }

/-- Runs a trial: its outcome, and the issues with it. -/
def trial (v : Validator) (sql : String) (rowLimit : Nat) : TrialOutcome × List Issue :=
  match v.backend with
  | none =>
    ({}, [{ severity := .info, message := "Execution test skipped: no backend attached" }])
  | some run =>
    let query := v.trialQuery sql rowLimit
    let outcome := run query rowLimit
    (outcome, (outcome.error.map (failureIssue query)).toList)

/-- Checks the wording of a text, and what the options ask for besides. -/
def check (v : Validator) (sql : String) (o : ValidationOptions) : ValidationReport :=
  let text := normalize sql
  let worded := lexicalIssues text ++ commentIssues sql
  let parsed :=
    if o.syntaxCheck && !worded.any Issue.isError then grammarIssues v.accepts v.dialect text
    else []
  let (outcome, tried) := if o.execute then v.trial text o.rowLimit else ({}, [])
  { issues := worded ++ parsed ++ tried, normalized := text, rows := outcome.rows,
    elapsed := outcome.elapsed }

/-- The validator in one line. -/
def describe (v : Validator) : String :=
  "SqlValidator \x7b dialect: " ++ v.dialect.title ++ ", backend: " ++ toString v.backend.isSome
    ++ " \x7d"

end Validator

end MeasureSql
