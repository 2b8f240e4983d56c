import MeasureSql.Dax.Expr
import MeasureSql.Render.Subquery

/-!
# Calls

The SQL of a function call.  Most functions put their arguments into their pattern one by one; the
iterators, the conditional on values, the table-makers and the functions that change filters have
rules of their own.  Every rule takes the rendering of an argument as a parameter, and so does not
depend on how arguments are rendered.

## Main definitions

* `plainCall`, `genericCall`, `iteratorCall`, `switchCall`, `projectionCall` — the rules.
* `guarded` — what an iterator computes on each row.
* `applyFilter` — a filter argument put to the filters in force.
* `filteredCall`, `totalToDateCall` — an expression under its own filters.
* `renderCall` — the rule that a function's name selects.
-/

namespace MeasureSql

open Dax

namespace Rendering

variable (t : Target) (sub : Expr → Rendering String)

/-- Each argument from left to right. -/
def renderAll : List Expr → Rendering (List String)
  | [] => pure []
  | e :: es => do
    let sql ← sub e
    let rest ← renderAll es
    pure (sql :: rest)

/-- A table argument: where its rows come from and, for a plain table, its SQL name. -/
def tableArgument : Expr → Rendering (String × Option String)
  | .table name => do
    let table ← resolveTable t name
    pure (t.fromName table, some table)
  | other => do
    let sql ← sub other
    pure (sql, none)

/-- A call as it stands, under the name that the function has in the dialect. -/
def plainCall (name : String) (args : List Expr) : Rendering String := do
  let args ← renderAll sub args
  let shown := (t.dialect.renamed? name).getD (Text.asciiUpper name)
  pure (shown ++ "(" ++ ", ".intercalate args ++ ")")

/-- A call of a function without a pattern. -/
def unknownCall (name : String) (args : List Expr) : Rendering String := do
  note .low ("Unknown function " ++ Text.asciiUpper name ++ ": emitted as a plain SQL call")
  plainCall t sub name args

/-- A call whose arguments do not fit its function. -/
def malformedCall (name : String) (args : List Expr) (usage : String) : Rendering String := do
  note .low (Text.asciiUpper name ++ " expects " ++ usage ++ "; emitted as a plain SQL call")
  plainCall t sub name args

/-- Warns of each parameter without an argument. -/
def noteMissing (pattern : String) : List String → Rendering Unit
  | [] => pure ()
  | param :: rest => do
    note .low (pattern ++ ": missing argument " ++ param)
    noteMissing pattern rest

/-- Puts arguments into a pattern.  A pattern with a hole for a table that no argument fills takes
the table of its arguments. -/
def applyPattern (p : Pattern) (args : List String) (table : Option String) : Rendering String := do
  let bound := p.bind args
  noteMissing p.name bound.missing
  if 0 < bound.extra then
    note .medium (p.name ++ ": ignored " ++ toString bound.extra ++ " extra argument(s)")
  let bindings ←
    if !bound.bindings.contains "table" && (Template.holes p.template).contains "table" then
      match table with
      | some name => pure (bound.bindings.insert "table" (t.fromName name))
      | none => do
        note .low (p.name ++ ": could not determine the source table")
        pure (bound.bindings.insert "table" "NULL")
    else pure bound.bindings
  usePattern t p
  fillPattern t p bindings

/-- The arguments of a call, and the table of its first column that has one.  A column in the place
of a table stands for its table. -/
def genericArgs : List String → Option String → List Expr → Rendering (List String × Option String)
  | _, table, [] => pure ([], table)
  | params, table, arg :: rest => do
    let (sql, table) ← match arg with
      | .column ref => do
        let column ← resolveColumn t ref
        let sql := match column.table with
          | some owner => if params.head? == some "table" then t.fromName owner else column.sql
          | none => column.sql
        pure (sql, table.or column.table)
      | other => do
        let sql ← sub other
        pure (sql, table)
    let (sqls, table) ← genericArgs params.tail table rest
    pure (sql :: sqls, table)

/-- A call whose arguments go straight into its pattern. -/
def genericCall (name : String) (args : List Expr) : Rendering String :=
  match t.patterns.get? name with
  | none => unknownCall t sub name args
  | some p => do
    let (args, table) ← genericArgs t sub p.params none args
    applyPattern t p args table

/-- The table that an iterator goes through, and the condition on its rows: a filtered table is the
table with its condition. -/
def iterated : Expr → Expr × Option Expr
  | .call f [table, condition] =>
    if Text.asciiUpper f == "FILTER" then (table, some condition)
    else (.call f [table, condition], none)
  | other => (other, none)

/-- The value of an expression for a row, behind the condition on the rows, if there is one.  The
condition is rendered whatever becomes of the value. -/
def guarded (expression : Expr) : Option Expr → Rendering String
  | none => sub expression
  | some condition => do
    let (value, guard) ← inTurn (sub expression) (sub condition)
    pure ("CASE WHEN " ++ guard ++ " THEN " ++ value ++ " END")

/-- An aggregate over the rows of a table.  A condition on the rows becomes a guard inside the
aggregate. -/
def iteratorCall (name : String) (args : List Expr) : Rendering String :=
  match t.patterns.get? name with
  | none => unknownCall t sub name args
  | some p => match args with
    | source :: expression :: rest => do
      let (table, condition) := iterated source
      if condition.isSome then
        usePatternNamed t "FILTER"
      let (tableSql, row) ← tableArgument t sub table
      let value ← withRow row (guarded sub expression condition)
      let rest ← renderAll sub rest
      applyPattern t p (tableSql :: value :: rest) row
    | _ => malformedCall t sub name args "a table and an expression"

/-- The cases of a conditional on values: pairs of value and result, and perhaps a last result. -/
def switchCases : List Expr → Rendering (List String)
  | [] => pure []
  | [default] => do
    let sql ← sub default
    pure ["ELSE " ++ sql]
  | value :: result :: rest => do
    let value ← sub value
    let result ← sub result
    let cases ← switchCases rest
    pure (("WHEN " ++ value ++ " THEN " ++ result) :: cases)

/-- Is the expression the literal `TRUE`? -/
def isTrue : Expr → Bool
  | .literal (.boolean true) => true
  | _ => false

/-- A conditional on values; on the value `TRUE` it is one on conditions. -/
def switchCall (name : String) (args : List Expr) : Rendering String :=
  match args with
  | subject :: first :: second :: rest => do
    let cases ← switchCases sub (first :: second :: rest)
    let cases := " ".intercalate cases
    if isTrue subject then
      usePatternNamed t "SWITCH"
      pure ("CASE " ++ cases ++ " END")
    else
      let subject ← sub subject
      match t.patterns.get? "SWITCH" with
      | some p => do
        usePattern t p
        fillPattern t p [("expression", subject), ("cases", cases)]
      | none => pure ("CASE " ++ subject ++ " " ++ cases ++ " END")
  | _ => malformedCall t sub name args "an expression and at least one value/result pair"

/-- The columns of a projection: a text before an expression names it, and everything else stands by
itself. -/
def projected : List Expr → Rendering (List String × List String)
  | [] => pure ([], [])
  | .literal (.string label) :: value :: rest => do
    let sql ← sub value
    let (plain, named) ← projected rest
    pure (plain, (sql ++ " AS " ++ t.dialect.quoteIdentifier label) :: named)
  | other :: rest => do
    let sql ← sub other
    let (plain, named) ← projected rest
    pure (sql :: plain, named)

/-- A function that makes a table: grouping, adding columns, or choosing them. -/
def projectionCall (name : String) (args : List Expr) : Rendering String :=
  match t.patterns.get? name with
  | none => unknownCall t sub name args
  | some p => match args with
    | [] => malformedCall t sub name args "a table argument"
    | source :: rest => do
      let (tableSql, row) ← tableArgument t sub source
      let (plain, named) ← alongRow row (projected t sub rest)
      usePattern t p
      let columns := ", ".intercalate (plain ++ named)
      if p.name == "SUMMARIZE" then
        if plain.isEmpty && named.isEmpty then pure ("(SELECT DISTINCT * FROM " ++ tableSql ++ ")")
        else if named.isEmpty then
          pure ("(SELECT DISTINCT " ++ columns ++ " FROM " ++ tableSql ++ ")")
        else if plain.isEmpty then pure ("(SELECT " ++ columns ++ " FROM " ++ tableSql ++ ")")
        else fillPattern t p [("table", tableSql), ("group_by", ", ".intercalate plain),
          ("aggregations", ", ".intercalate named)]
      else if plain.isEmpty && named.isEmpty then pure ("(SELECT * FROM " ++ tableSql ++ ")")
      else fillPattern t p [("table", tableSql), ("columns", columns)]

/-- Puts a condition to the filters in force, under its first column. -/
def addCondition (condition : Rendering String) (column : Option ColumnRef) : Rendering Unit := do
  let condition ← condition
  let (table, name) ← match column with
    | some ref => do
      let resolved ← resolveColumn t ref
      pure (resolved.table.getD "", resolved.column)
    | none => pure ("", condition)
  changeFilters (·.add table name condition)

/-- Takes away the filters on a table or on a column. -/
def removeTarget : Expr → Rendering Unit
  | .table name => do
    let table ← resolveTable t name
    changeFilters (·.removeTable table)
  | .column ref => do
    let resolved ← resolveColumn t ref
    match resolved.table with
    | some table => changeFilters (·.removeColumn table resolved.column)
    | none => pure ()
  | _ => pure ()

/-- The SQL names of the columns among some arguments. -/
def keptColumns : List Expr → Rendering (List String)
  | [] => pure []
  | .column ref :: rest => do
    let resolved ← resolveColumn t ref
    let others ← keptColumns rest
    pure (resolved.column :: others)
  | _ :: rest => keptColumns rest

/-- Takes away all filters of a table but those on some columns. -/
def keepOnly : List Expr → Rendering Unit
  | [] => pure ()
  | .table name :: columns => do
    let table ← resolveTable t name
    let kept ← keptColumns t columns
    changeFilters (·.keepOnly table kept)
  | other :: _ => removeTarget t other

mutual

/-- Puts a filter argument to the filters in force: most are conditions, and some functions take
filters away. -/
def applyFilter : Expr → Rendering Unit
  | .call name args =>
    let condition := addCondition t (sub (.call name args)) (Expr.firstColumnOf? args)
    match Text.asciiUpper name with
    | "ALL" | "REMOVEFILTERS" => do
      usePatternNamed t name
      if args.isEmpty then
        changeFilters fun _ => .empty
      args.forM (removeTarget t)
    | "ALLEXCEPT" => do
      usePatternNamed t "ALLEXCEPT"
      keepOnly t args
    | "KEEPFILTERS" => do
      usePatternNamed t "KEEPFILTERS"
      applyFilters args
    | "FILTER" => match args with
      | [table, predicate] => do
        usePatternNamed t "FILTER"
        let (_, row) ← tableArgument t sub table
        withRow row (addCondition t (sub predicate) predicate.firstColumn?)
      | _ => condition
    | _ => condition
  | other => addCondition t (sub other) other.firstColumn?

/-- Puts filter arguments to the filters in force, from left to right. -/
def applyFilters : List Expr → Rendering Unit
  | [] => pure ()
  | e :: es => do
    applyFilter e
    applyFilters es

end

/-- An expression under its own filters. -/
def filteredCall (name : String) (args : List Expr) : Rendering String :=
  match args with
  | [] => malformedCall t sub name args "an expression"
  | expression :: filters =>
    subquery t (Text.asciiUpper name) (applyFilters t sub filters) (sub expression)

/-- The dates that a total to date is restricted to. -/
def periodOf : String → String
  | "TOTALYTD" => "DATESYTD"
  | "TOTALQTD" => "DATESQTD"
  | _ => "DATESMTD"

/-- A total to date: an expression under the filter of its period and its own filters. -/
def totalToDateCall (name : String) (args : List Expr) : Rendering String :=
  match args with
  | expression :: dates :: filters =>
    let upper := Text.asciiUpper name
    let apply : Rendering Unit := do
      addCondition t (genericCall t sub (periodOf upper) [dates]) dates.firstColumn?
      applyFilters t sub filters
    subquery t upper apply (sub expression)
  | _ => malformedCall t sub name args "an expression and a dates column"

/-- A call by the rule that its name selects. -/
def renderCall (name : String) (args : List Expr) : Rendering String :=
  match Text.asciiUpper name with
  | "CALCULATE" | "CALCULATETABLE" => filteredCall t sub name args
  | "TOTALYTD" | "TOTALQTD" | "TOTALMTD" => totalToDateCall t sub name args
  | "SWITCH" => switchCall t sub name args
  | "SUMMARIZE" | "ADDCOLUMNS" | "SELECTCOLUMNS" => projectionCall t sub name args
  | "SUMX" | "AVERAGEX" | "COUNTX" | "MINX" | "MAXX" => iteratorCall t sub name args
  | _ => genericCall t sub name args

end Rendering

end MeasureSql
