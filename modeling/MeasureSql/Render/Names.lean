import MeasureSql.Dax.Printer
import MeasureSql.Render.State
import MeasureSql.Text.Blank

/-!
# Names in SQL

The SQL names of the tables and columns of an expression.  What the schema does not know is guessed,
with a warning.

## Main definitions

* `guess` — the name used when nothing is known.
* `resolveTable`, `resolveColumn` — names by the schema.
* `fromName` — a table where rows are read from.
-/

namespace MeasureSql

/-- A name in small letters with underscores for spaces. -/
def guess (name : String) : String :=
  (Text.lower (Text.trim name)).map fun c => if c == ' ' then '_' else c

/-- A column by its SQL names. -/
structure ResolvedColumn where
  /-- The column as it is written, with its table in front if one is known. -/
  sql : String
  table : Option String
  column : String
  deriving DecidableEq, Repr

namespace ResolvedColumn

/-- A column of a table. -/
def ofTable (table column : String) : ResolvedColumn :=
  ⟨table ++ "." ++ column, some table, column⟩

/-- A column of no known table. -/
def bare (column : String) : ResolvedColumn :=
  ⟨column, none, column⟩

end ResolvedColumn

/-- A table where rows are read from: its SQL name with the schema in front. -/
def Target.fromName (t : Target) (table : String) : String :=
  ((t.schema?.bind (·.table? table)).map (·.fullName)).getD table

namespace Rendering

/-- The SQL name of a table, whose use is recorded. -/
def resolveTable (t : Target) (name : String) : Rendering String := do
  let resolved ← match t.schema? with
    | some schema => match schema.table? name with
      | some table => pure table.name
      | none => do
        note .low ("Unknown table '" ++ name ++ "'; guessed " ++ guess name)
        pure (guess name)
    | none => do
      noteNoSchema
      pure (guess name)
  useTable resolved
  pure resolved

/-- The SQL name of a column of a table. -/
def resolveQualified (t : Target) (ref : Dax.ColumnRef) (table : String) :
    Rendering ResolvedColumn := do
  let tableSql ← resolveTable t table
  match t.schema? with
  | none => pure (.ofTable tableSql (guess ref.column))
  | some schema => match schema.column? table ref.column with
    | some column => pure (.ofTable tableSql column.name)
    | none => do
      note .low ("Unknown column " ++ ref.qualifiedName ++ "; guessed " ++ guess ref.column)
      pure (.ofTable tableSql (guess ref.column))

/-- The SQL name of a column in brackets alone.  With a schema the iterated tables are searched from
the outermost in and then all tables; without one the innermost iterated table is taken. -/
def resolveBare (t : Target) (column : String) : Rendering ResolvedColumn := do
  match t.schema? with
  | some schema => match schema.findColumn? column (← get).rowTables with
    | some (table, found) => do
      useTable table.name
      pure (.ofTable table.name found.name)
    | none => do
      note .low ("Unresolved reference [" ++ column ++ "] (measure or unknown column); guessed "
        ++ guess column)
      pure (.bare (guess column))
  | none => do
    noteNoSchema
    match (← get).rowTables.getLast? with
    | some table => pure (.ofTable table (guess column))
    | none => pure (.bare (guess column))

/-- The SQL name of a column. -/
def resolveColumn (t : Target) (ref : Dax.ColumnRef) : Rendering ResolvedColumn :=
  match ref.table with
  | some table => resolveQualified t ref table
  | none => resolveBare t ref.column

end Rendering

end MeasureSql
