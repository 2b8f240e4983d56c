import MeasureSql.Json.Record
import MeasureSql.Pattern.Basic

/-!
# Pattern documents

A pattern as a JSON value.

## Main definitions

* `Pattern.toJson`, `Pattern.ofJson?`.
-/

namespace MeasureSql

/-- A sample as a JSON value. -/
def Sample.toJson (s : Sample) : Json :=
  .obj [("dax", .str s.dax), ("sql", .str s.sql)]

/-- A sample from a JSON value. -/
def Sample.ofJson? (j : Json) : Option Sample := do
  match ← j.record? [["dax"], ["sql"]] with
  | [dax, sql] => some ⟨← Json.required? Json.text? dax, ← Json.required? Json.text? sql⟩
  | _ => none

/-- A sample, or `null` for none. -/
def Sample.ofJsonOrNull? : Json → Option (Option Sample)
  | .null => some none
  | j => (Sample.ofJson? j).map some

namespace Bindings

/-- Bindings as a JSON object. -/
def toJson (b : Bindings) : Json :=
  .obj (b.map fun (name, value) => (name, .str value))

/-- Adds the members of an object, a later one in place of an earlier one of the same name. -/
def ofMembers? : List (String × Json) → Bindings → Option Bindings
  | [], b => some b
  | (name, .str value) :: rest, b => ofMembers? rest (b.insert name value)
  | _, _ => none

/-- Bindings from a JSON object. -/
def ofJson? : Json → Option Bindings
  | .obj members => ofMembers? members []
  | _ => none

end Bindings

namespace Pattern

/-- A pattern as a JSON value. -/
def toJson (p : Pattern) : Json :=
  .obj [("name", .str p.name), ("category", .str p.category.name), ("template", .str p.template),
    ("description", .str p.description), ("notes", .optional p.notes),
    ("example", .ofOption Sample.toJson p.sample), ("params", .strings p.params),
    ("defaults", p.defaults.toJson), ("variadic", .optional p.separator),
    ("needs_context", .bool p.needsSchema), ("dialect_specific", .bool p.isDialectSpecific),
    ("complexity", .str p.complexity.name)]

/-- A pattern from a JSON value. -/
def ofJson? (j : Json) : Option Pattern := do
  let fields ← j.record? [["name"], ["category"], ["template"], ["description"], ["notes"],
    ["example"], ["params"], ["defaults"], ["variadic"], ["needs_context"], ["dialect_specific"],
    ["complexity"]]
  match fields with
  | [name, category, template, description, notes, sample, params, defaults, separator,
      needsSchema, isDialectSpecific, complexity] => do
    some {
      name := ← Json.required? Json.text? name
      category := ← Json.required? (Json.word? PatternCategory.ofName?) category
      template := ← Json.required? Json.text? template
      description := ← Json.required? Json.text? description
      notes := ← Json.withDefault? none Json.optionalText? notes
      sample := ← Json.withDefault? none Sample.ofJsonOrNull? sample
      params := ← Json.withDefault? [] (Json.list? Json.text?) params
      defaults := ← Json.withDefault? [] Bindings.ofJson? defaults
      separator := ← Json.withDefault? none Json.optionalText? separator
      needsSchema := ← Json.withDefault? false Json.boolean? needsSchema
      isDialectSpecific := ← Json.withDefault? false Json.boolean? isDialectSpecific
      complexity := ← Json.withDefault? .simple (Json.word? Complexity.ofName?) complexity }
  | _ => none

end Pattern

end MeasureSql
