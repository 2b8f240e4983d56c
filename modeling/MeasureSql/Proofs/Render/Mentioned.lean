import MeasureSql.Proofs.Render.LetterCase

/-!
# What is mentioned

The names and texts that an expression and a schema mention, by what they name.  All that stands in
SQL besides fixed words and numbers is made from them, so what holds of them decides which
vocabulary the SQL of an expression is put together from.

## Main definitions

* `Expr.places`, `Expr.labels`, `Expr.texts` — what an expression mentions at its root.
* `Schema.places`, `Schema.qualifiers` — what a schema mentions in SQL.

## Main results

* `composed_renderExpr` — the SQL of an expression is put together from a vocabulary that all
  mentioned names belong to.
-/

namespace MeasureSql

open Dax Sql

namespace Dax.Expr

/-- The tables and columns that an expression names at its root. -/
def places : Expr → List String
  | .column ref => ref.column :: ref.table.toList
  | .table name => [name]
  | _ => []

/-- The functions, variables and measures that an expression names at its root. -/
def labels : Expr → List String
  | .call name _ => [name]
  | .variable name _ => [name]
  | .measure name _ _ _ => [name]
  | _ => []

/-- The text of a literal. -/
def texts : Expr → List String
  | .literal (.string text) => [text]
  | _ => []

end Dax.Expr

namespace Schema

/-- The SQL names of tables and columns, and the names that relationships use for them. -/
def places (schema : Schema) : List String :=
  schema.tables.flatMap (fun tb => tb.name :: tb.columns.map (·.name)) ++
    schema.relationships.flatMap fun r => [r.fromTable, r.fromColumn, r.toTable, r.toColumn]

/-- The names that stand before those of tables. -/
def qualifiers (schema : Schema) : List String :=
  schema.tables.filterMap (·.schema)

end Schema

namespace Sql.Vocabulary

variable {V : Vocabulary}

/-- A schema belongs to a vocabulary if its names do, with the names before those of tables. -/
theorem HoldsSchema.of_places {schema : Schema} (h : ∀ name ∈ schema.places, V.name name)
    (hqualified : ∀ q ∈ schema.qualifiers, ∀ name, V.name name → V.word (q ++ "." ++ name)) :
    V.HoldsSchema schema := by
  have table : ∀ tb ∈ schema.tables, V.name tb.name ∧ ∀ c ∈ tb.columns, V.name c.name := by
    intro tb htb
    have names : ∀ name ∈ tb.name :: tb.columns.map (·.name), V.name name := fun name hname =>
      h name (List.mem_append_left _ (List.mem_flatMap.mpr ⟨tb, htb, hname⟩))
    obtain ⟨name, columns⟩ := List.forall_mem_cons.mp names
    exact ⟨name, fun c hc => columns _ (List.mem_map_of_mem hc)⟩
  refine ⟨fun tb htb => ⟨(table tb htb).1, ?_⟩, fun tb htb => (table tb htb).2, fun r hr => ?_⟩
  · unfold Table.fullName
    split
    · next q hq =>
      exact hqualified q (List.mem_filterMap.mpr ⟨tb, htb, hq⟩) _ (table tb htb).1
    · exact V.word_of_name (table tb htb).1
  · have ends : ∀ name ∈ [r.fromTable, r.fromColumn, r.toTable, r.toColumn], V.name name :=
      fun name hname => h name (List.mem_append_right _ (List.mem_flatMap.mpr ⟨r, hr, hname⟩))
    simpa using ends

theorem Fits.of_schema {t : Target} (ht : t.patterns = .builtin)
    (h : ∀ schema ∈ t.schema, V.HoldsSchema schema) : V.Fits t :=
  ⟨ht, fun schema hschema => h schema (Option.eq_some_of_filter_eq_some hschema)⟩

end Sql.Vocabulary

namespace Rendering

variable {V : Vocabulary} {t : Target}

/-- **The SQL of an expression** is put together from a vocabulary that all mentioned names belong
to. -/
theorem composed_renderExpr (ht : V.Fits t) {e : Expr} (he : V.CoversAll t.dialect e) {sql : String}
    (h : (renderExpr t e {}).1 = .ok sql) : Composed V sql := by
  have start : InVocabulary V t {} :=
    ⟨⟨by simp, by simp⟩, by simp, by simp⟩
  exact (echoed_of_covers ht e.height e le_rfl he {} {} start (.refl {})).2.2.2 sql h

end Rendering

end MeasureSql
