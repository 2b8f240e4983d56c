import MeasureSql.Proofs.Pattern.Catalog
import MeasureSql.Proofs.Render.Nesting
import MeasureSql.Schema.Retail

/-!
# Columns among rows

A column in brackets alone belongs to one of the tables whose rows are around it.  With a schema
they are searched from the outermost in, and so the column is bound to the outermost of them that
has it; if none has it, to the first table of the schema that does.  Without a schema it is bound to
the innermost of them.  The two agree on which table is meant, as if the innermost one were searched
first, exactly if the outermost and the innermost table with the column are one.

## Main definitions

* `Schema.IsFirstWith` — the first of some tables that has a column.
* `innermostAt` — a column bound to the innermost table that has it.

## Main results

* `columnAt_bare_eq_innermostAt_iff` — when a column is bound to the innermost table.
* `bound_of_course` — the rows around every part of an expression, and what columns are bound to
  there.
-/

namespace MeasureSql

open Dax

namespace Schema

variable {column : String} {tables : List Table} {tb : Table} {c : Column}

/-- The table is the first one that has the column, known by either of its names. -/
def IsFirstWith (column : String) (tables : List Table) (tb : Table) (c : Column) : Prop :=
  ∃ before after, tables = before ++ tb :: after ∧
    tb.columnByKey? (Text.upper column) = some c ∧
    ∀ other ∈ before, other.columnByKey? (Text.upper column) = none

theorem firstWithColumn?_eq_findSome? (key : String) (tables : List Table) :
    firstWithColumn? key tables =
      tables.findSome? fun tb => (tb.columnByKey? key).map (tb, ·) := by
  induction tables with
  | nil => rfl
  | cons tb tables ih =>
    rw [firstWithColumn?, List.findSome?_cons]
    cases tb.columnByKey? key with
    | none => exact ih
    | some c => rfl

theorem firstWithColumn?_eq_some_iff :
    firstWithColumn? (Text.upper column) tables = some (tb, c) ↔
      IsFirstWith column tables tb c := by
  rw [firstWithColumn?_eq_findSome?, List.findSome?_eq_some_iff, IsFirstWith]
  simp only [Option.map_eq_some_iff, Option.map_eq_none_iff, Prod.mk.injEq]
  constructor
  · rintro ⟨before, _, after, heq, ⟨_, hc, rfl, rfl⟩, hnone⟩
    exact ⟨before, after, heq, hc, hnone⟩
  · rintro ⟨before, after, heq, hc, hnone⟩
    exact ⟨before, tb, after, heq, ⟨c, hc, rfl, rfl⟩, hnone⟩

theorem firstWithColumn?_eq_none_iff {key : String} :
    firstWithColumn? key tables = none ↔ ∀ tb ∈ tables, tb.columnByKey? key = none := by
  simp [firstWithColumn?_eq_findSome?]

/-- The preferred tables come first. -/
theorem findColumn?_eq_or (s : Schema) (column : String) (preferred : List String) :
    s.findColumn? column preferred =
      (firstWithColumn? (Text.upper column) (preferred.filterMap s.table?)).or
        (firstWithColumn? (Text.upper column) s.tables) := by
  simp only [findColumn?, firstWithColumn?_eq_findSome?, List.findSome?_append]

end Schema

namespace Rendering

variable {t : Target} {rows : List String} {column : String}

/-! ## Bindings -/

/-- A column by what was found of it. -/
def ofFound (column : String) : Option (Table × Column) → ResolvedColumn
  | some (tb, c) => .ofTable tb.name c.name
  | none => .bare (guess column)

/-- **A column bound to the innermost table** around it that has it, and if none has it to the first
table of the schema that does.  Without a schema it is bound to the innermost table. -/
def innermostAt (t : Target) (rows : List String) (column : String) : ResolvedColumn :=
  match t.schema? with
  | some schema => ofFound column (schema.findColumn? column rows.reverse)
  | none => match rows.getLast? with
    | some table => .ofTable table (guess column)
    | none => .bare (guess column)

theorem columnAt_bare {schema : Schema} (hschema : t.schema? = some schema) :
    columnAt t rows ⟨none, column⟩ = ofFound column (schema.findColumn? column rows) := by
  cases hfound : schema.findColumn? column rows <;> simp [columnAt, ofFound, hschema, hfound]

theorem columnAt_bare_of_none (hschema : t.schema? = none) :
    columnAt t rows ⟨none, column⟩ = innermostAt t rows column := by
  cases hlast : rows.getLast? <;> simp [columnAt, innermostAt, hschema, hlast]

theorem ofTable_inj {a b c d : String} :
    ResolvedColumn.ofTable a b = .ofTable c d ↔ a = c ∧ b = d := by
  constructor
  · intro h
    exact ⟨Option.some.inj (congrArg ResolvedColumn.table h), congrArg ResolvedColumn.column h⟩
  · rintro ⟨rfl, rfl⟩
    rfl

/-- **When a column is bound to the innermost table**: exactly if, with a schema, the outermost and
the innermost of the tables around it that have the column give it the same name. -/
theorem columnAt_bare_eq_innermostAt_iff :
    columnAt t rows ⟨none, column⟩ = innermostAt t rows column ↔
      ∀ schema, t.schema? = some schema → ∀ tb c tb' c',
        Schema.IsFirstWith column (rows.filterMap schema.table?) tb c →
        Schema.IsFirstWith column (rows.filterMap schema.table?).reverse tb' c' →
          tb.name = tb'.name ∧ c.name = c'.name := by
  cases hschema : t.schema? with
  | none => exact ⟨fun _ schema h => (nomatch h), fun _ => columnAt_bare_of_none hschema⟩
  | some schema =>
    simp only [Option.some.injEq, forall_eq', columnAt_bare hschema, innermostAt, hschema,
      Schema.findColumn?_eq_or, List.filterMap_reverse, ← Schema.firstWithColumn?_eq_some_iff]
    generalize rows.filterMap schema.table? = tables
    cases hfirst : Schema.firstWithColumn? (Text.upper column) tables with
    | none =>
      have hlast : Schema.firstWithColumn? (Text.upper column) tables.reverse = none := by
        rw [Schema.firstWithColumn?_eq_none_iff] at hfirst ⊢
        exact fun tb htb => hfirst tb (List.mem_reverse.mp htb)
      simp [hlast]
    | some first =>
      cases hlast : Schema.firstWithColumn? (Text.upper column) tables.reverse with
      | none =>
        rw [Schema.firstWithColumn?_eq_none_iff] at hlast
        obtain ⟨hmem, hcolumn⟩ := Schema.mem_of_firstWithColumn? hfirst
        rw [hlast first.1 (List.mem_reverse.mpr hmem)] at hcolumn
        cases hcolumn
      | some last =>
        simp only [Option.some_or, ofFound, ofTable_inj, Option.some.injEq]
        constructor
        · rintro h tb c tb' c' rfl rfl
          exact h
        · intro h
          exact h _ _ _ _ rfl rfl

/-- In a schema that was built, a table that is known is also found by the SQL name that its rows go
by. -/
theorem table?_tableAt {schema : Schema} (hschema : t.schema? = some schema) (hbuilt : schema.Built)
    {name : String} {tb : Table} (h : schema.table? name = some tb) :
    schema.table? (tableAt t name) = some tb := by
  have hname : tableAt t name = tb.name := by simp [tableAt, hschema, h]
  rw [hname]
  exact hbuilt.byName (Schema.mem_of_table? h)

/-! ## Columns in the course of rendering -/

/-- **What columns are bound to.**  At every part that rendering comes to, the rows are those of the
tables around it that an iterator, a filtered table as a filter or as the source of an iterator, or
a table-maker goes through.  With a schema a column in brackets alone is bound there to the
outermost of these tables that has it, if none has it to the first table of the schema that does,
and else to none; without a schema it is bound to the innermost table.  This is as if the innermost
table that has it were taken exactly if the outermost and the innermost one are called the same. -/
theorem bound_of_course (t : Target) {tree y : Expr} {u : RenderState}
    (hcourse : Course t (tree, {}) (y, u)) :
    ∃ names, Encloses t tree names y ∧ u.rowTables = names.map (tableAt t) ∧ ∀ column,
      let bound := columnAt t u.rowTables ⟨none, column⟩
      Gives u.rowTables (resolveColumn t ⟨none, column⟩) bound ∧
      (y = .column ⟨none, column⟩ → (renderExpr t y u).1 = .ok bound.sql) ∧
      (t.schema? = none → bound = match names.getLast? with
        | some name => .ofTable (guess name) (guess column)
        | none => .bare (guess column)) ∧
      ∀ schema, t.schema? = some schema →
        let around := names.filterMap fun name => schema.table? (tableAt t name)
        (schema.Built → ∀ name tb, schema.table? name = some tb →
          schema.table? (tableAt t name) = some tb) ∧
        (∀ tb c, Schema.IsFirstWith column around tb c → bound = .ofTable tb.name c.name) ∧
        ((∀ tb ∈ around, tb.columnByKey? (Text.upper column) = none) →
          ∀ tb c, Schema.IsFirstWith column schema.tables tb c → bound = .ofTable tb.name c.name) ∧
        ((∀ tb ∈ schema.tables, tb.columnByKey? (Text.upper column) = none) →
          bound = .bare (guess column)) ∧
        (bound = innermostAt t u.rowTables column ↔ ∀ tb c tb' c',
          Schema.IsFirstWith column around tb c → Schema.IsFirstWith column around.reverse tb' c' →
            tb.name = tb'.name ∧ c.name = c'.name) := by
  obtain ⟨names, hencloses, hrows⟩ := hcourse.encloses
  have hrows : u.rowTables = names.map (tableAt t) := hrows
  refine ⟨names, hencloses, hrows, fun column => ?_⟩
  have hgives : Gives u.rowTables (resolveColumn t ⟨none, column⟩)
      (columnAt t u.rowTables ⟨none, column⟩) := gives_resolveColumn _
  refine ⟨hgives, ?_, ?_, ?_⟩
  · rintro rfl
    obtain ⟨s', hrun, -⟩ := hgives u rfl
    rw [renderExpr_eq, renderWith, run_bind, hrun]
    rfl
  · intro hschema
    have hguess : ∀ name, tableAt t name = guess name := fun name => by simp [tableAt, hschema]
    rw [columnAt_bare_of_none hschema, innermostAt, hschema, hrows, List.getLast?_map]
    cases names.getLast? with
    | none => rfl
    | some name => simp [hguess]
  · intro schema hschema around
    have haround : u.rowTables.filterMap schema.table? = around := by
      rw [hrows, List.filterMap_map]
      rfl
    have hiff := @columnAt_bare_eq_innermostAt_iff t u.rowTables column
    simp only [hschema, Option.some.injEq, forall_eq', haround] at hiff
    refine ⟨fun hbuilt _ _ => table?_tableAt hschema hbuilt, ?_, ?_, ?_, hiff⟩
    all_goals rw [columnAt_bare hschema, Schema.findColumn?_eq_or, haround]
    · intro tb c hfirst
      rw [Schema.firstWithColumn?_eq_some_iff.mpr hfirst]
      rfl
    · intro hnone tb c hfirst
      rw [Schema.firstWithColumn?_eq_none_iff.mpr hnone,
        Schema.firstWithColumn?_eq_some_iff.mpr hfirst]
      rfl
    · intro hnone
      have hbefore : ∀ tb ∈ around, tb.columnByKey? (Text.upper column) = none := by
        intro tb htb
        obtain ⟨name, -, hname⟩ := List.mem_filterMap.mp htb
        exact hnone tb (Schema.mem_of_table? hname)
      rw [Schema.firstWithColumn?_eq_none_iff.mpr hbefore,
        Schema.firstWithColumn?_eq_none_iff.mpr hnone]
      rfl

/-- An iterator over a plain table comes to its value, among the rows of the table. -/
theorem comesTo_iterator {name : String} (hroute : route name = .iterator) {p : Pattern}
    (hget : t.patterns.get? name = some p) (table : String) (expression : Expr) (rest : List Expr)
    (s : RenderState) :
    ComesTo t (.call name (.table table :: expression :: rest), s)
      (expression, { (resolveTable t table s).2 with
        rowTables := s.rowTables ++ [tableAt t table] }) := by
  obtain ⟨s₁, hrun, hrows⟩ := gives_resolveTable (t := t) table s rfl
  refine comesTo_of_fails fun sub err _ hfails => ?_
  rw [hrun] at hfails
  obtain ⟨u, hvalue⟩ :
      ∃ u, withRow (some (tableAt t table)) (sub expression) s₁ = (.error err, u) :=
    ⟨_, by rw [run_withRow, hrows, hfails]⟩
  have hiterated : iterated (.table table) = (.table table, none) := rfl
  rw [renderWith, renderCall_eq, hroute]
  simp only [iteratorCall, hget, hiterated, tableArgument, Option.isSome_none, Bool.false_eq_true,
    if_false, run_bind, hrun]
  have hpure : ∀ a : String × Option String, (Pure.pure a : Rendering _) s₁ = (.ok a, s₁) :=
    fun _ => rfl
  rw [hpure]
  dsimp only [guarded]
  rw [hvalue]

/-- The key of a product, inside the products of the sales: it is the one of the sales, around the
products, and the other column, which the sales do not have, is that of the products. -/
theorem bound_in_products_of_sales :
    let t : Target := ⟨some .retail, .builtin, .snowflake⟩
    let key : Expr := .column ⟨none, "product_key"⟩
    let tree : Expr := .call "SUMX" [.table "Sales", .call "SUMX" [.table "Product", key]]
    ∃ u, Course t (tree, {}) (key, u) ∧ (renderExpr t key u).1 = .ok "sales.product_key" ∧
      (innermostAt t u.rowTables "product_key").sql = "dim_product.product_key" ∧
      columnAt t u.rowTables ⟨none, "UnitPrice"⟩ = innermostAt t u.rowTables "UnitPrice" := by
  intro t key tree
  have hroute : route "SUMX" = .iterator := rfl
  obtain ⟨p, hget⟩ : ∃ p, t.patterns.get? "SUMX" = some p := by
    refine Option.isSome_iff_exists.mp ?_
    dsimp only [t]
    rw [PatternLibrary.builtin_eq]
    decide +kernel
  have houter := comesTo_iterator hroute hget "Sales" (.call "SUMX" [.table "Product", key]) [] {}
  have hinner := comesTo_iterator hroute hget "Product" key []
    { (resolveTable t "Sales" {}).2 with rowTables := [] ++ [tableAt t "Sales"] }
  have hcourse := Relation.ReflTransGen.refl.tail houter |>.tail hinner
  refine ⟨_, hcourse, ?_⟩
  obtain ⟨names, -, -, hbound⟩ := bound_of_course t hcourse
  have hrows : [] ++ [tableAt t "Sales"] ++ [tableAt t "Product"] = ["sales", "dim_product"] := by
    decide +kernel
  dsimp only at hbound ⊢
  rw [hrows] at hbound ⊢
  refine ⟨((hbound "product_key").2.1 rfl).trans (congrArg Except.ok ?_), ?_, ?_⟩
  all_goals decide +kernel

/-- A filtered table that stands by itself does not iterate its rows: its condition is on the key of
the sales, which are the first table. -/
example :
    let t : Target := ⟨some .retail, .builtin, .snowflake⟩
    let products : Expr := .call "FILTER" [.table "Product",
      .binary (.column ⟨none, "product_key"⟩) .greaterThan (.literal (.integer 1))]
    (renderExpr t products {}).1.toOption =
      some "(SELECT * FROM dim_product WHERE sales.product_key > 1)" := by
  dsimp only
  rw [PatternLibrary.builtin_eq]
  decide +kernel

end Rendering

end MeasureSql
