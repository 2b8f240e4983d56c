import MeasureSql.Schema.Column

/-!
# Tables

## Main definitions

* `Table` — a table in SQL, perhaps known by another name in expressions, and its columns.
* `Table.column?`, `Table.columnByKey?` — its columns by name.
-/

namespace MeasureSql

/-- A table: its name in SQL, its name in expressions when that is another one, the schema it
belongs to, and its columns. -/
structure Table where
  name : String
  daxName : Option String := none
  schema : Option String := none
  columns : List Column := []
  primaryKey : List String := []
  description : Option String := none
  deriving DecidableEq, Repr, Inhabited

namespace Table

/-- The name in expressions. -/
def effectiveName (t : Table) : String :=
  t.daxName.getD t.name

/-- The name in SQL with the schema in front. -/
def fullName (t : Table) : String :=
  match t.schema with
  | some schema => schema ++ "." ++ t.name
  | none => t.name

/-- The SQL name in capitals. -/
def sqlKey (t : Table) : String :=
  Text.upper t.name

/-- The name in expressions in capitals. -/
def daxKey (t : Table) : String :=
  Text.upper t.effectiveName

/-- The first column called that, up to the case of the letters A to Z. -/
def column? (t : Table) (name : String) : Option Column :=
  t.columns.find? (·.isCalled name)

/-- The first column with that key. -/
def columnByKey? (t : Table) (key : String) : Option Column :=
  t.columns.find? (·.hasKey key)

end Table

end MeasureSql
