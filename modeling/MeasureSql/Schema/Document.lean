import MeasureSql.Json.Printer
import MeasureSql.Json.Reader
import MeasureSql.Json.Record
import MeasureSql.Schema.Basic

/-!
# Schema documents

A schema as a JSON document with a list of tables and a list of relationships.  Fields with a
default may be left out, and members that are no field are ignored.

## Main definitions

* `Column.toJson`, `Table.toJson`, `Relationship.toJson`, `Schema.toText` — writing.
* `Column.ofJson?`, `Table.ofJson?`, `Relationship.ofJson?`, `Schema.ofText?` — reading.
-/

namespace MeasureSql

namespace Column

/-- A column as a JSON value. -/
def toJson (c : Column) : Json :=
  .obj [("name", .str c.name), ("dax_name", .optional c.daxName),
    ("data_type", .str c.dataType.name), ("is_key", .bool c.isKey),
    ("is_nullable", .bool c.isNullable), ("description", .optional c.description)]

/-- A column from a JSON value. -/
def ofJson? (j : Json) : Option Column := do
  let fields ← j.record? [["name"], ["dax_name"], ["data_type"], ["is_key"], ["is_nullable"],
    ["description"]]
  match fields with
  | [name, daxName, dataType, isKey, isNullable, description] => do
    some {
      name := ← Json.required? Json.text? name
      daxName := ← Json.withDefault? none Json.optionalText? daxName
      dataType := ← Json.withDefault? .unknown (Json.word? ColumnType.ofName?) dataType
      isKey := ← Json.withDefault? false Json.boolean? isKey
      isNullable := ← Json.withDefault? true Json.boolean? isNullable
      description := ← Json.withDefault? none Json.optionalText? description }
  | _ => none

end Column

namespace Table

/-- A table as a JSON value. -/
def toJson (t : Table) : Json :=
  .obj [("name", .str t.name), ("dax_name", .optional t.daxName), ("schema", .optional t.schema),
    ("columns", .arr (t.columns.map Column.toJson)), ("primary_key", .strings t.primaryKey),
    ("description", .optional t.description)]

/-- A table from a JSON value. -/
def ofJson? (j : Json) : Option Table := do
  let fields ← j.record? [["name"], ["dax_name"], ["schema"], ["columns"], ["primary_key"],
    ["description"]]
  match fields with
  | [name, daxName, schema, columns, primaryKey, description] => do
    some {
      name := ← Json.required? Json.text? name
      daxName := ← Json.withDefault? none Json.optionalText? daxName
      schema := ← Json.withDefault? none Json.optionalText? schema
      columns := ← Json.withDefault? [] (Json.list? Column.ofJson?) columns
      primaryKey := ← Json.withDefault? [] (Json.list? Json.text?) primaryKey
      description := ← Json.withDefault? none Json.optionalText? description }
  | _ => none

end Table

namespace Relationship

/-- A relationship as a JSON value. -/
def toJson (r : Relationship) : Json :=
  .obj [("from_table", .str r.fromTable), ("from_column", .str r.fromColumn),
    ("to_table", .str r.toTable), ("to_column", .str r.toColumn),
    ("cardinality", .str r.cardinality.name), ("cross_filter", .str r.crossFilter.name),
    ("is_active", .bool r.isActive)]

/-- A relationship from a JSON value; the cardinality goes by two names. -/
def ofJson? (j : Json) : Option Relationship := do
  let fields ← j.record? [["from_table"], ["from_column"], ["to_table"], ["to_column"],
    ["cardinality", "relationship_type"], ["cross_filter"], ["is_active"]]
  match fields with
  | [fromTable, fromColumn, toTable, toColumn, cardinality, crossFilter, isActive] => do
    some {
      fromTable := ← Json.required? Json.text? fromTable
      fromColumn := ← Json.required? Json.text? fromColumn
      toTable := ← Json.required? Json.text? toTable
      toColumn := ← Json.required? Json.text? toColumn
      cardinality := ← Json.withDefault? .manyToOne (Json.word? Cardinality.ofName?) cardinality
      crossFilter := ← Json.withDefault? .single (Json.word? CrossFilter.ofName?) crossFilter
      isActive := ← Json.withDefault? true Json.boolean? isActive }
  | _ => none

end Relationship

namespace Schema

/-- A schema with the given tables and relationships, added in order. -/
def ofLists (tables : List Table) (relationships : List Relationship) : Schema :=
  relationships.foldl addRelationship (tables.foldl addTable empty)

/-- A schema as a JSON value. -/
def toJson (s : Schema) : Json :=
  .obj [("tables", .arr (s.tables.map Table.toJson)),
    ("relationships", .arr (s.relationships.map Relationship.toJson))]

/-- A schema from a JSON value. -/
def ofJson? (j : Json) : Option Schema := do
  let fields ← j.record? [["tables"], ["relationships"]]
  match fields with
  | [tables, relationships] => do
    let tables ← Json.withDefault? [] (Json.list? Table.ofJson?) tables
    let relationships ← Json.withDefault? [] (Json.list? Relationship.ofJson?) relationships
    some (ofLists tables relationships)
  | _ => none

/-- A schema as the text of a document. -/
def toText (s : Schema) : String :=
  s.toJson.pretty

/-- A schema from the text of a document. -/
def ofText? (text : String) : Option Schema :=
  (Json.read? text).bind ofJson?

end Schema

end MeasureSql
