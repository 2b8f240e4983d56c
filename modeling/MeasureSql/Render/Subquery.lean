import MeasureSql.Render.Names
import MeasureSql.Schema.JoinPath

/-!
# Subqueries

The tables that a filtered subquery reads from: those that its expression uses, and those that the
filters in force speak of, joined along the relationships of the schema.

## Main definitions

* `filterTables` — the tables of the filters in force.
* `fromClause` — the tables joined.
* `subquery` — an expression evaluated under changed filters.
-/

namespace MeasureSql

/-- The part of a key before its first point; nothing when the key has no point or nothing stands
before it. -/
def keyTable? (key : String) : Option String :=
  let table := key.toList.takeWhile (· != '.')
  if table.length == key.toList.length || table.isEmpty then none else some (String.ofList table)

/-- The SQL name of the table of a key in capitals. -/
def Target.keyName (t : Target) (table : String) : String :=
  ((t.schema?.bind (·.table? table)).map (·.name)).getD (Text.lower table)

/-- The SQL names of the tables of the filters in force, each once. -/
def Target.filterTables (t : Target) (f : FilterContext) : List String :=
  ((f.effective.filterMap fun e => keyTable? e.1).map t.keyName).foldl Rendering.addNew []

namespace Rendering

/-- Warns of each table that cannot be joined without a schema. -/
def noteUnjoined (base : String) : List String → Rendering Unit
  | [] => pure ()
  | table :: rest => do
    note .low ("Cannot join " ++ table ++ " to " ++ base ++ " without schema context")
    noteUnjoined base rest

/-- The tables that can be reached from the first one; each of the others is warned of. -/
def reachable (schema : Schema) (base : String) : List String → Rendering (List String)
  | [] => pure []
  | table :: rest =>
    if schema.hasPath base table then do
      let others ← reachable schema base rest
      pure (table :: others)
    else do
      note .low ("No relationship path from " ++ base ++ " to " ++ table
        ++ "; table left out of the join")
      reachable schema base rest

/-- The first table with the others joined to it, as far as the schema allows. -/
def fromClause (t : Target) : List String → Rendering String
  | [] => pure ""
  | base :: rest =>
    let start := t.fromName base
    if rest.isEmpty then pure start
    else match t.schema? with
      | none => do
        noteUnjoined base rest
        pure start
      | some schema => do
        let others ← reachable schema base rest
        match schema.joinClauses (base :: others) with
        | .ok clauses => pure (" ".intercalate (start :: clauses))
        | .error e => do
          note .low e.message
          pure start

/-- An expression as a query over the tables that it and the filters in force speak of.  `apply`
changes the filters for the expression alone.  Without any table there is nothing to read from, and
the expression stands by itself. -/
def subquery (t : Target) (name : String) (apply : Rendering Unit) (expression : Rendering String) :
    Rendering String := do
  let (sql, tables, conditions) ← keepingFilters do
    let _ ← withScope apply
    let (sql, used) ← withScope expression
    used.forM useTable
    let filters := (← get).filters
    pure (sql, (t.filterTables filters).foldl addNew used, filters.whereClause)
  if tables.isEmpty then
    unless conditions.isEmpty do
      note .low (name ++ ": filters dropped, no table to apply them to")
    usePatternNamed t name
    pure sql
  else
    let source ← fromClause t tables
    let filtered := if conditions.isEmpty then "" else " WHERE " ++ conditions
    match t.patterns.get? name with
    | some p => do
      usePattern t p
      fillPattern t p [("expression", sql), ("from", source), ("where", filtered)]
    | none => pure ("(SELECT " ++ sql ++ " FROM " ++ source ++ filtered ++ ")")

end Rendering

end MeasureSql
