import MeasureSql.Schema.Relationship
import MeasureSql.Schema.Table

/-!
# Schemas

The tables and relationships of a semantic model.  Names are looked up in capitals: a table by its
SQL name first, and then by the alias under which expressions know it.  An alias belongs to the
table that claimed it last, and is given up when that table, or another one that once claimed it,
is replaced.

## Main definitions

* `Schema` — tables, relationships and aliases.
* `Schema.addTable`, `Schema.addRelationship` — building a schema.
* `Schema.table?`, `Schema.column?`, `Schema.findColumn?` — lookups.
-/

namespace MeasureSql

/-- The tables and relationships of a semantic model, in the order in which they were added, and the
SQL key behind each alias. -/
structure Schema where
  tables : List Table := []
  relationships : List Relationship := []
  aliases : List (String × String) := []
  deriving Repr, Inhabited

namespace Schema

/-- A schema without tables. -/
def empty : Schema := {}

/-- Does it have no tables? -/
def isEmpty (s : Schema) : Bool :=
  s.tables.isEmpty

/-- The table with that SQL key. -/
def tableByKey? (s : Schema) (key : String) : Option Table :=
  s.tables.find? (·.sqlKey == key)

/-- The aliases after one is given up. -/
def dropAlias (aliases : List (String × String)) (name : String) : List (String × String) :=
  aliases.filter (·.1 != name)

/-- The aliases after one is taken, from whoever had it. -/
def takeAlias (aliases : List (String × String)) (name sqlKey : String) :
    List (String × String) :=
  (name, sqlKey) :: dropAlias aliases name

/-- Adds a table.  A table with the same SQL key is replaced where it stands. -/
def addTable (s : Schema) (t : Table) : Schema :=
  match s.tableByKey? t.sqlKey with
  | some old =>
    { s with
      tables := s.tables.map fun u => if u.sqlKey == t.sqlKey then t else u
      aliases := takeAlias (dropAlias s.aliases old.daxKey) t.daxKey t.sqlKey }
  | none =>
    { s with
      tables := s.tables ++ [t]
      aliases := takeAlias s.aliases t.daxKey t.sqlKey }

/-- Adds a relationship; its tables need not exist. -/
def addRelationship (s : Schema) (r : Relationship) : Schema :=
  { s with relationships := s.relationships ++ [r] }

/-- A table by its SQL name, or by its alias if no table has that SQL name. -/
def table? (s : Schema) (name : String) : Option Table :=
  let key := Text.upper name
  (s.tableByKey? key).or ((s.aliases.lookup key).bind s.tableByKey?)

/-- The SQL name of a table. -/
def sqlTableName? (s : Schema) (name : String) : Option String :=
  (s.table? name).map (·.name)

/-- The name of a table in expressions. -/
def daxTableName? (s : Schema) (name : String) : Option String :=
  (s.table? name).map (·.effectiveName)

/-- A column of a table, each by either of its names. -/
def column? (s : Schema) (table column : String) : Option Column :=
  (s.table? table).bind (·.columnByKey? (Text.upper column))

/-- The SQL name of a column. -/
def sqlColumnName? (s : Schema) (table column : String) : Option String :=
  (s.column? table column).map (·.name)

/-- The first of some tables that has a column with that key. -/
def firstWithColumn? (key : String) : List Table → Option (Table × Column)
  | [] => none
  | t :: ts => match t.columnByKey? key with
    | some c => some (t, c)
    | none => firstWithColumn? key ts

/-- A column without its table: the preferred tables are tried first, then all in order. -/
def findColumn? (s : Schema) (column : String) (preferred : List String) :
    Option (Table × Column) :=
  firstWithColumn? (Text.upper column) (preferred.filterMap s.table? ++ s.tables)

/-- The names that a table may go by: the given one, its SQL name, its name in expressions. -/
def namesOf (s : Schema) (name : String) : List String :=
  match s.table? name with
  | some t => [name, t.name, t.effectiveName]
  | none => [name]

/-- The relationships with a table at either end. -/
def relationshipsOf (s : Schema) (table : String) : List Relationship :=
  s.relationships.filter fun r => (s.namesOf table).any r.involves

/-- The SQL key of a table, or the name in capitals when it is not registered. -/
def tableKey (s : Schema) (name : String) : String :=
  Text.upper ((s.sqlTableName? name).getD name)

end Schema

end MeasureSql
