import MeasureSql.Json.Basic

/-!
# Issues

What a check of SQL text has to say.  Only an error makes the text invalid.

## Main definitions

* `Severity` — how bad an issue is.
* `Issue` — a message with an optional place and an optional suggestion.
-/

namespace MeasureSql

/-- How bad an issue is: the SQL will not run, it probably does not do what was meant, or it is
worth a look. -/
inductive Severity where
  | error
  | warning
  | info
  deriving DecidableEq, Repr, Inhabited

namespace Severity

/-- All severities. -/
def all : List Severity := [.error, .warning, .info]

/-- The name of a severity. -/
def name : Severity → String
  | .error => "ERROR"
  | .warning => "WARNING"
  | .info => "INFO"

/-- A severity by its name. -/
def ofName? (s : String) : Option Severity :=
  all.find? (·.name == s)

end Severity

/-- A message about SQL text, with its place and a suggestion if there is one. -/
structure Issue where
  severity : Severity
  message : String
  location : Option String := none
  suggestion : Option String := none
  deriving DecidableEq, Repr, Inhabited

namespace Issue

/-- An issue in one line. -/
def display (i : Issue) : String :=
  let place := match i.location with
    | some location => " (" ++ location ++ ")"
    | none => ""
  i.severity.name ++ ": " ++ i.message ++ place

/-- An issue as a JSON value. -/
def toJson (i : Issue) : Json :=
  .obj [("level", .str i.severity.name), ("message", .str i.message),
    ("location", .optional i.location), ("suggestion", .optional i.suggestion)]

/-- Is it an error? -/
def isError (i : Issue) : Bool :=
  i.severity == .error

end Issue

end MeasureSql
