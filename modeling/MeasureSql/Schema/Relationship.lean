import MeasureSql.Text.CaseMap

/-!
# Relationships

## Main definitions

* `Cardinality`, `CrossFilter` — the kinds of relationships.
* `Relationship` — two columns of two tables that are joined.
-/

namespace MeasureSql

/-- How many rows stand on each side, read from the first table. -/
inductive Cardinality where
  | oneToOne
  | oneToMany
  | manyToOne
  | manyToMany
  deriving DecidableEq, Repr, Inhabited

namespace Cardinality

/-- All cardinalities. -/
def all : List Cardinality := [.oneToOne, .oneToMany, .manyToOne, .manyToMany]

/-- The name of a cardinality. -/
def name : Cardinality → String
  | .oneToOne => "ONE_TO_ONE"
  | .oneToMany => "ONE_TO_MANY"
  | .manyToOne => "MANY_TO_ONE"
  | .manyToMany => "MANY_TO_MANY"

/-- The cardinality of that name. -/
def ofName? (s : String) : Option Cardinality :=
  all.find? (·.name == s)

/-- A cardinality as a ratio. -/
def ratio : Cardinality → String
  | .oneToOne => "1:1"
  | .oneToMany => "1:N"
  | .manyToOne => "N:1"
  | .manyToMany => "N:N"

end Cardinality

/-- Which way filters pass through a relationship. -/
inductive CrossFilter where
  | single
  | both
  | none
  deriving DecidableEq, Repr, Inhabited

namespace CrossFilter

/-- All directions. -/
def all : List CrossFilter := [.single, .both, .none]

/-- The name of a direction. -/
def name : CrossFilter → String
  | .single => "SINGLE"
  | .both => "BOTH"
  | .none => "NONE"

/-- The direction of that name. -/
def ofName? (s : String) : Option CrossFilter :=
  all.find? (·.name == s)

end CrossFilter

/-- Two columns that are joined.  The tables are named as they were written; whether they exist is
seen only when a path is looked up. -/
structure Relationship where
  fromTable : String
  fromColumn : String
  toTable : String
  toColumn : String
  cardinality : Cardinality := .manyToOne
  crossFilter : CrossFilter := .single
  isActive : Bool := true
  deriving DecidableEq, Repr, Inhabited

namespace Relationship

/-- The join condition. -/
def joinCondition (r : Relationship) : String :=
  r.fromTable ++ "." ++ r.fromColumn ++ " = " ++ r.toTable ++ "." ++ r.toColumn

/-- Is one of the two tables called that, up to the case of the letters A to Z? -/
def involves (r : Relationship) (table : String) : Bool :=
  Text.sameIgnoringCase r.fromTable table || Text.sameIgnoringCase r.toTable table

/-- The first table's name in capitals. -/
def fromKey (r : Relationship) : String :=
  Text.upper r.fromTable

/-- The second table's name in capitals. -/
def toKey (r : Relationship) : String :=
  Text.upper r.toTable

end Relationship

end MeasureSql
