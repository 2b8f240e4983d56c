import MeasureSql.Text.CaseMap

/-!
# Confidence

How far generated SQL can be trusted without review.  The confidence of a query is the least that
was found anywhere in it.

## Main definitions

* `Confidence`, ordered from low to high.
* `Confidence.demote` — the lower of two.
-/

namespace MeasureSql

/-- How far generated SQL can be trusted. -/
inductive Confidence where
  | low
  | medium
  | high
  deriving DecidableEq, Repr, Inhabited

namespace Confidence

/-- All levels, the lowest first. -/
def all : List Confidence := [.low, .medium, .high]

/-- The place of a level in the order. -/
def rank : Confidence → Nat
  | .low => 0
  | .medium => 1
  | .high => 2

/-- The lower of two levels. -/
def demote (a b : Confidence) : Confidence :=
  if b.rank < a.rank then b else a

/-- The name of a level. -/
def name : Confidence → String
  | .low => "LOW"
  | .medium => "MEDIUM"
  | .high => "HIGH"

/-- The name of a level as a title. -/
def title : Confidence → String
  | .low => "Low"
  | .medium => "Medium"
  | .high => "High"

/-- A level by its name in any case; an unknown name is returned in small letters. -/
def parse (s : String) : Except String Confidence :=
  let word := Text.lower s
  match word with
  | "low" => .ok .low
  | "medium" => .ok .medium
  | "high" => .ok .high
  | _ => .error word

/-- What is said of an unknown name. -/
def unknownMessage (word : String) : String :=
  "Unknown confidence level: " ++ word ++ " (expected low, medium or high)"

/-- A level by a name in a document, all in capitals or all in small letters. -/
def ofDocument? (s : String) : Option Confidence :=
  all.find? fun c => c.name == s || Text.asciiLower c.name == s

end Confidence

end MeasureSql
