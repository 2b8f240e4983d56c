import MeasureSql.Schema.Basic

/-!
# Schema summaries

A schema described in a short text with headings, for a reader who completes a query by hand.

## Main definitions

* `Schema.summary`.
-/

namespace MeasureSql

namespace Schema

/-- One column in a list. -/
def columnLine (c : Column) : String :=
  "  - " ++ c.effectiveName ++ ": " ++ c.dataType.name ++ (if c.isKey then " [KEY]" else "")

/-- The lines on one table. -/
def tableLines (t : Table) : List String :=
  ["### " ++ t.effectiveName ++ " (SQL: " ++ t.fullName ++ ")"]
    ++ (t.description.map ("Description: " ++ ·)).toList
    ++ ["Columns:"] ++ t.columns.map columnLine ++ [""]

/-- One relationship in a list; only many rows to one has a direction. -/
def relationshipLine (r : Relationship) : String :=
  let arrow := if r.cardinality = .manyToOne then "→" else "↔"
  "- " ++ r.fromTable ++ "." ++ r.fromColumn ++ " " ++ arrow ++ " "
    ++ r.toTable ++ "." ++ r.toColumn
    ++ (if r.isActive then "" else " (inactive)")

/-- A description of the schema. -/
def summary (s : Schema) : String :=
  let relationships :=
    if s.relationships.isEmpty then []
    else ["## Relationships", ""] ++ s.relationships.map relationshipLine
  "\n".intercalate
    (["# Schema Context", "", "## Tables", ""] ++ s.tables.flatMap tableLines ++ relationships)

end Schema

end MeasureSql
