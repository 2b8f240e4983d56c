import MeasureSql.Proofs.Render.FilterTables
import MeasureSql.Proofs.Render.Sources
import MeasureSql.Proofs.Text.Capitals
import MeasureSql.Proofs.Text.LetterCase

/-!
# Whose condition a key files

A key has the name of a table and that of a column with a point between them, and names may have
points of their own.  The table of a condition is looked up by what stands before the first point of
its key; a table is taken away with all keys that begin with its name and a point.  So a table whose
name has a point can be taken for another one, and a table can lose its conditions with another one
when the keys of one of the two begin as the keys of the other.  Without points in the names of
tables neither happens, whatever the names of columns are.

## Main definitions

* `FilterContext.filed` — the filters after one condition.
* `FilterContext.keyFront` — what stands before the first point of the keys of a table.
* `FilterContext.Nested` — the keys of one table begin as those of another.

## Main results

* `FilterContext.effective_removeTable_filed_iff` — what a table taken away leaves in force.
* `FilterContext.forall_effective_removeTable_iff` — it leaves all conditions of another table in
  force exactly when their keys are not nested.
* `Rendering.filterTables_filed_iff` — when the table of a condition is found again.
* `Rendering.filed_identifies` — the two together, and names without points.
-/

namespace MeasureSql

namespace FilterContext

variable {table other column condition : String}

/-! ## One condition -/

/-- The filters after one condition on a column of a table. -/
def filed (table column condition : String) : FilterContext :=
  FilterContext.empty.add table column condition

theorem entries_filed :
    (filed table column condition).entries = [(key table column, [condition])] := rfl

theorem removed_filed : (filed table column condition).removed = [] := rfl

theorem effective_filed :
    (filed table column condition).effective = [(key table column, [condition])] := by
  simp [effective, entries_filed, removed_filed]

/-! ## Keys that begin alike -/

/-- The keys of one of two tables begin as the keys of the other. -/
def Nested (table other : String) : Prop :=
  keyStem table <+: keyStem other ∨ keyStem other <+: keyStem table

theorem ofTable_iff {k : String} : ofTable other k = true ↔ keyStem other <+: k.toList := by
  rw [ofTable, List.isPrefixOf_iff_prefix, String.toList_append]
  rfl

/-- **What a table taken away leaves in force**: the condition, unless its key begins as the keys of
that table. -/
theorem effective_removeTable_filed_iff :
    ((filed table column condition).removeTable other).effective =
        (filed table column condition).effective ↔
      ¬ keyStem other <+: (key table column).toList := by
  rw [← ofTable_iff, effective_filed]
  by_cases taken : ofTable other (key table column) = true
  · simp [effective, removeTable, removeWhere, entries_filed, removed_filed, taken]
  · simp [effective, removeTable, removeWhere, entries_filed, removed_filed, taken]

/-- What follows the stem of one table in the stem of another is in capitals. -/
theorem upper_rest {rest : List Char} (h : keyStem table ++ rest = keyStem other) :
    Text.upper (String.ofList rest) = String.ofList rest := by
  rw [Text.upper, String.toList_ofList, Text.flatMap_upperChar]
  intro c hc
  have hmem : c ∈ keyStem other := h ▸ List.mem_append_right _ hc
  rcases List.mem_append.mp hmem with hname | hpoint
  · exact Text.upperChar_of_mem_upper hname
  · obtain rfl := List.mem_singleton.mp hpoint
    decide

/-- **No key of a table begins as those of another** exactly when the two are not nested.  Where the
keys of the other begin as those of the table, a column called as the rest is filed under such a
key. -/
theorem forall_not_prefix_key_iff :
    (∀ column, ¬ keyStem other <+: (key table column).toList) ↔ ¬ Nested table other := by
  constructor
  · rintro apart (⟨rest, hrest⟩ | within)
    · have hkey : (key table (String.ofList rest)).toList = keyStem other := by
        rw [toList_key, upper_rest hrest, String.toList_ofList, hrest]
      exact apart (String.ofList rest) (hkey ▸ List.prefix_refl _)
    · refine apart "" ?_
      rw [toList_key]
      exact within.trans (List.prefix_append _ _)
  · intro apart column begins
    rw [toList_key] at begins
    exact apart ((List.prefix_or_prefix_of_prefix begins (List.prefix_append _ _)).symm)

/-- **A table taken away leaves all conditions of another in force** exactly when their keys are not
nested. -/
theorem forall_effective_removeTable_iff :
    (∀ column condition, ((filed table column condition).removeTable other).effective =
        (filed table column condition).effective) ↔ ¬ Nested table other := by
  simp only [effective_removeTable_filed_iff, forall_const]
  exact forall_not_prefix_key_iff

/-- Names without points have nested keys only if they are the same in capitals. -/
theorem upper_eq_of_nested (hpoint : '.' ∉ (Text.upper table).toList)
    (hother : '.' ∉ (Text.upper other).toList) (h : Nested table other) :
    Text.upper table = Text.upper other := by
  have hfront (a b : String) (h : keyStem a <+: keyStem b) :
      (Text.upper a).toList.takeWhile (· != '.') = (Text.upper b).toList.takeWhile (· != '.') := by
    obtain ⟨rest, hrest⟩ := h
    rw [← takeWhile_keyStem_append a rest, hrest, ← takeWhile_keyStem_append b [],
      List.append_nil]
  rw [← String.toList_inj, ← Rendering.takeWhile_eq_self_of_not_mem hpoint,
    ← Rendering.takeWhile_eq_self_of_not_mem hother]
  exact h.elim (hfront table other) fun within => (hfront other table within).symm

/-- **What stands before the first point of the keys of a table.** -/
def keyFront (table : String) : String :=
  String.ofList ((Text.upper table).toList.takeWhile (· != '.'))

theorem keyFront_eq_empty_iff :
    keyFront table = "" ↔ (Text.upper table).toList.takeWhile (· != '.') = [] := by
  rw [keyFront, ← String.toList_inj, String.toList_ofList, String.toList_empty]

theorem not_mem_keyFront : '.' ∉ (keyFront table).toList := by
  rw [keyFront, String.toList_ofList]
  intro hmem
  simpa using List.mem_takeWhile_imp hmem

/-- Without a point in the name it is the whole name. -/
theorem keyFront_eq_upper (hpoint : '.' ∉ (Text.upper table).toList) :
    keyFront table = Text.upper table := by
  rw [keyFront, Rendering.takeWhile_eq_self_of_not_mem hpoint, String.ofList_toList]

end FilterContext

namespace Rendering

open FilterContext

variable {t : Target} {schema : Schema} {u : Table} {column condition : String}

/-! ## Finding the table again -/

theorem keyTable?_key_eq (table column : String) :
    keyTable? (key table column) = if keyFront table = "" then none else some (keyFront table) := by
  split
  · next hempty =>
    rw [keyFront_eq_empty_iff] at hempty
    refine Option.eq_none_iff_forall_ne_some.mpr fun found hfound => ?_
    exact (keyTable?_key_eq_some_iff.mp hfound).1 hempty
  · next hne =>
    exact keyTable?_key_eq_some_iff.mpr ⟨fun hnil => hne (keyFront_eq_empty_iff.mpr hnil), rfl⟩

/-- The tables of one condition: that of its key, if the key is read as one. -/
theorem filterTables_filed (table : String) :
    t.filterTables (filed table column condition) =
      if keyFront table = "" then [] else [t.keyName (keyFront table)] := by
  rw [Target.filterTables, effective_filed, List.filterMap_cons, keyTable?_key_eq]
  by_cases hempty : keyFront table = ""
  · simp [hempty]
  · simp [hempty, addNew]

/-- A name is read as the table if the table is found by it.  The small form of a name that no table
has is not the name of the table: it has no point, and then the name is that of the table in
capitals. -/
theorem keyName_keyFront_eq_iff (hschema : t.schema? = some schema)
    (distinct : (schema.tables.map (·.sqlKey)).Nodup) (hu : u ∈ schema.tables) :
    t.keyName (keyFront u.name) = u.name ↔ schema.table? (keyFront u.name) = some u := by
  have hname : schema.table? u.name = some u := Schema.table?_name distinct hu
  simp only [Target.keyName, hschema, Option.bind_some]
  cases found : schema.table? (keyFront u.name) with
  | none =>
    simp only [Option.map_none, Option.getD_none, reduceCtorEq, iff_false]
    intro hlower
    have hmark : Text.isMark '.' = true := by decide
    have hpoint : '.' ∉ (Text.upper u.name).toList := by
      intro hmem
      have hname := Text.mem_of_mem_upper hmem hmark
      rw [← hlower] at hname
      exact not_mem_keyFront (Text.mem_of_mem_lower hname hmark)
    rw [keyFront_eq_upper hpoint, Schema.table?_congr (Text.upper_upper u.name), hname] at found
    cases found
  | some v =>
    simp only [Option.map_some, Option.getD_some, Option.some.injEq]
    constructor
    · intro heq
      have hv : schema.table? v.name = some v :=
        Schema.table?_name distinct (Schema.mem_of_table? found)
      rw [heq, hname] at hv
      exact (Option.some.inj hv).symm
    · rintro rfl
      rfl

/-- **When the table of a condition is found again**: something stands before the first point of its
key, and by this the schema finds the table. -/
theorem filterTables_filed_iff (hschema : t.schema? = some schema)
    (distinct : (schema.tables.map (·.sqlKey)).Nodup) (hu : u ∈ schema.tables) :
    t.filterTables (filed u.name column condition) = [u.name] ↔
      keyFront u.name ≠ "" ∧ schema.table? (keyFront u.name) = some u := by
  rw [filterTables_filed, ← keyName_keyFront_eq_iff hschema distinct hu]
  split
  · next hempty => simp [hempty]
  · next hne => simp [hne]

/-- A schema with a table is one to write SQL for. -/
theorem schema?_eq_some (hschema : t.schema = some schema) (hu : u ∈ schema.tables) :
    t.schema? = some schema := by
  have hnonempty : schema.isEmpty = false := by
    rw [Schema.isEmpty, List.isEmpty_eq_false_iff]
    exact List.ne_nil_of_mem hu
  rw [Target.schema?, hschema, Option.filter_some, hnonempty]
  rfl

/-- **Which table a condition is known to belong to.**  In a schema whose tables have different
names, after one condition on a table, its table is the one table of the filters exactly when
something stands before the first point of its name in capitals and the schema finds the table by
this; and taking another table away leaves the conditions on all columns in force exactly when the
keys of the two are not nested.  So it is where no name is empty or has a point. -/
theorem filed_identifies (hschema : t.schema = some schema)
    (distinct : (schema.tables.map (·.sqlKey)).Nodup) (hu : u ∈ schema.tables) :
    (∀ column condition, t.filterTables (filed u.name column condition) = [u.name] ↔
      keyFront u.name ≠ "" ∧ schema.table? (keyFront u.name) = some u) ∧
    (∀ v ∈ schema.tables, v ≠ u →
      ((∀ column condition, ((filed u.name column condition).removeTable v.name).effective =
        (filed u.name column condition).effective) ↔ ¬ Nested u.name v.name)) ∧
    (PlainNames schema → ∀ column condition,
      t.filterTables (filed u.name column condition) = [u.name] ∧
      ∀ v ∈ schema.tables, v ≠ u →
        ((filed u.name column condition).removeTable v.name).effective =
          (filed u.name column condition).effective) := by
  have hfound (column condition : String) :
      t.filterTables (filed u.name column condition) = [u.name] ↔
        keyFront u.name ≠ "" ∧ schema.table? (keyFront u.name) = some u :=
    filterTables_filed_iff (schema?_eq_some hschema hu) distinct hu
  refine ⟨hfound, fun v _ _ => forall_effective_removeTable_iff, fun plain column condition => ?_⟩
  obtain ⟨hne, hpoint⟩ := plain u hu
  have hfront : keyFront u.name = Text.upper u.name := keyFront_eq_upper hpoint
  refine ⟨(hfound column condition).mpr ⟨hfront ▸ hne, ?_⟩, fun v hv hvu => ?_⟩
  · rw [hfront, Schema.table?_congr (Text.upper_upper u.name)]
    exact Schema.table?_name distinct hu
  · refine forall_effective_removeTable_iff.mpr (fun nested => hvu ?_) column condition
    have hkey : v.sqlKey = u.sqlKey := (upper_eq_of_nested hpoint (plain v hv).2 nested).symm
    exact List.inj_on_of_nodup_map distinct hv hu hkey

/-- Two tables, the name of one of which begins as the keys of the other. -/
def regional : Schema where
  tables := [{ name := "sales" }, { name := "sales.eu" }]

/-- The European sales are not found again, and lose their conditions with the other ones; the sales
of the retail schema are found, and keep them, for a column with a point too. -/
theorem filed_identifies_regional :
    let europe : Table := { name := "sales.eu" }
    let t : Target := ⟨some regional, .empty, .snowflake⟩
    let r : Target := ⟨some .retail, .empty, .snowflake⟩
    let onAmount := filed "sales" "eu.amount" "sales.amount > 100"
    (regional.tables.map (·.sqlKey)).Nodup ∧ europe ∈ regional.tables ∧
      t.filterTables (filed "sales.eu" "amount" "sales.eu.amount > 100") ≠ ["sales.eu"] ∧
      (∃ column condition, ((filed "sales.eu" column condition).removeTable "sales").effective ≠
        (filed "sales.eu" column condition).effective) ∧
      (Schema.retail.tables.map (·.sqlKey)).Nodup ∧ Schema.salesTable ∈ Schema.retail.tables ∧
      PlainNames .retail ∧ r.filterTables onAmount = ["sales"] ∧
      (onAmount.removeTable "dim_date").effective = onAmount.effective := by
  intro europe t r onAmount
  have distinct : (regional.tables.map (·.sqlKey)).Nodup := by decide +kernel
  have heurope : europe ∈ regional.tables := by decide +kernel
  have hsales : Schema.salesTable ∈ Schema.retail.tables := by decide +kernel
  have plain : PlainNames .retail := by unfold PlainNames; decide +kernel
  obtain ⟨hfound, htaken, -⟩ := filed_identifies (t := t) rfl distinct heurope
  obtain ⟨hsource, hkept⟩ :=
    (filed_identifies (t := r) rfl Schema.built_retail.nodup_keys hsales).2.2 plain
      "eu.amount" "sales.amount > 100"
  refine ⟨distinct, heurope, fun h => ?_, ?_, Schema.built_retail.nodup_keys, hsales, plain,
    hsource, hkept Schema.dateTable (by decide +kernel) (by decide +kernel)⟩
  · have hfront : regional.table? (keyFront "sales.eu") = some { name := "sales" } := by
      decide +kernel
    exact absurd (hfront.symm.trans ((hfound _ _).mp h).2) (by decide +kernel)
  · have hnested : Nested europe.name "sales" := .inr (by unfold keyStem; decide +kernel)
    by_contra hall
    push Not at hall
    exact (htaken { name := "sales" } (by decide +kernel) (by decide +kernel)).mp hall hnested

/-- The condition on the one table is taken for one on the other. -/
example :
    let f := filed "sales.eu" "amount" "sales.eu.amount > 100"
    Target.filterTables ⟨some regional, .empty, .snowflake⟩ f = ["sales"] ∧
      (f.removeTable "sales").effective = [] := by
  decide +kernel

end Rendering

end MeasureSql
