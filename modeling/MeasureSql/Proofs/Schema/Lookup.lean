import Mathlib.Data.List.Induction
import MeasureSql.Proofs.Schema.Joins

/-!
# Lookups in a schema that grows

While a schema grows, tables are replaced where they stand, with other aliases and other columns,
and several tables may claim one alias.  No lookup gives anything that is out of date: a table is
found by the SQL name that it has now, and a table or a column that is found has, now, the name by
which it was found.  Of the aliases only one direction holds: the table behind an alias goes by that
alias, but a table may have lost its alias to another one.

The same lookups can be made by position.  A registry holds, beside the tables, the position of each
SQL key, the key behind each alias and the alias of each key, and for each table the positions of
its columns.  It is kept up to date by changing a few entries for each table that is added.  Every
position in it is one of the tables or columns there are, and the lookups are those of the schema.

## Main definitions

* `Schema.Addition`, `Schema.after` — additions, and the schema after some.
* `Schema.Registry`, `Schema.Registry.after` — tables with their indices.
* `Schema.Registry.InRange` — every position is that of a table or a column.
* `Schema.Owned` — the table behind an alias goes by it.
* `Schema.Mirrors` — a registry holds the tables of a schema, and finds them.

## Main results

* `Schema.Owned.addTable`, `Schema.Mirrors.addTable` — one table.
* `Schema.lookups_after` — lookups after any additions.
-/

namespace MeasureSql

namespace Schema

/-! ## Growing schemas -/

/-- What can be added to a schema. -/
inductive Addition where
  | table (t : Table)
  | relationship (r : Relationship)
  deriving DecidableEq, Repr

/-- The schema after an addition. -/
def extend (s : Schema) : Addition → Schema
  | .table t => s.addTable t
  | .relationship r => s.addRelationship r

/-- The schema after additions to an empty one. -/
def after (additions : List Addition) : Schema :=
  additions.foldl extend .empty

theorem after_concat (additions : List Addition) (a : Addition) :
    after (additions ++ [a]) = (after additions).extend a := by
  simp [after]

theorem built_after (additions : List Addition) : (after additions).Built := by
  induction additions using List.reverseRecOn with
  | nil => exact .empty
  | append_singleton additions a ih =>
    rw [after_concat]
    cases a with
    | table t => exact ih.addTable t
    | relationship r => exact ih.addRelationship r

variable {s : Schema} {t : Table} {k : String}

/-- **What a table that is added changes** is found under its own key only. -/
theorem tableByKey?_addTable (s : Schema) (t : Table) (k : String) :
    (s.addTable t).tableByKey? k = if k = t.sqlKey then some t else s.tableByKey? k := by
  cases found : s.tableByKey? t.sqlKey with
  | none =>
    simp only [addTable, found]
    exact Keyed.find?_concat Table.sqlKey t found k
  | some old =>
    simp only [addTable, found]
    exact Keyed.find?_replace Table.sqlKey t (Option.isSome_of_eq_some found) k

/-! ## Aliases -/

section Aliases

variable (aliases : List (String × String)) (name key a : String)

theorem lookup_dropAlias :
    (dropAlias aliases name).lookup a = if a = name then none else aliases.lookup a := by
  induction aliases with
  | nil => simp [dropAlias]
  | cons e aliases ih =>
    rw [dropAlias] at ih ⊢
    by_cases dropped : e.1 = name
    · rw [List.filter_cons_of_neg (by simp [dropped]), ih, List.lookup_cons, dropped]
      by_cases own : a = name
      · simp [own]
      · simp [own, beq_false_of_ne own]
    · rw [List.filter_cons_of_pos (by simp [dropped]), List.lookup_cons, List.lookup_cons, ih]
      by_cases own : a = name
      · have other : (name == e.1) = false := beq_false_of_ne (Ne.symm dropped)
        simp [own, other]
      · simp [own]

theorem lookup_takeAlias :
    (takeAlias aliases name key).lookup a = if a = name then some key else aliases.lookup a := by
  rw [takeAlias, List.lookup_cons, lookup_dropAlias]
  by_cases own : a = name
  · simp [own]
  · simp [own, beq_false_of_ne own]

end Aliases

/-- **The table behind an alias goes by it.** -/
def Owned (s : Schema) : Prop :=
  ∀ a k, s.aliases.lookup a = some k → ∃ t, s.tableByKey? k = some t ∧ t.daxKey = a

/-- A table that is replaced takes its old alias with it, so no alias leads to it but its own. -/
theorem Owned.addTable (h : s.Owned) (t : Table) : (s.addTable t).Owned := by
  intro a k hk
  rw [tableByKey?_addTable]
  cases found : s.tableByKey? t.sqlKey with
  | none =>
    simp only [Schema.addTable, found, lookup_takeAlias] at hk
    by_cases own : a = t.daxKey
    · rw [if_pos own, Option.some.injEq] at hk
      exact ⟨t, if_pos hk.symm, own.symm⟩
    · rw [if_neg own] at hk
      obtain ⟨u, hu, known⟩ := h a k hk
      have other : k ≠ t.sqlKey := by
        rintro rfl
        rw [found] at hu
        cases hu
      exact ⟨u, by rwa [if_neg other], known⟩
  | some old =>
    simp only [Schema.addTable, found, lookup_takeAlias, lookup_dropAlias] at hk
    by_cases own : a = t.daxKey
    · rw [if_pos own, Option.some.injEq] at hk
      exact ⟨t, if_pos hk.symm, own.symm⟩
    · rw [if_neg own] at hk
      by_cases lost : a = old.daxKey
      · rw [if_pos lost] at hk
        cases hk
      · rw [if_neg lost] at hk
        obtain ⟨u, hu, known⟩ := h a k hk
        have other : k ≠ t.sqlKey := by
          rintro rfl
          obtain rfl : old = u := Option.some.inj (found.symm.trans hu)
          exact lost known.symm
        exact ⟨u, by rwa [if_neg other], known⟩

/-- In a schema that was built the table behind an alias goes by it. -/
theorem Built.owned (h : s.Built) : s.Owned := by
  induction h with
  | empty =>
    intro a k hk
    cases hk
  | addTable _ t ih => exact ih.addTable t
  | addRelationship _ r ih => exact ih

/-- A table that is found has the name by which it was found. -/
theorem Owned.key_of_table? (h : s.Owned) {name : String} (found : s.table? name = some t) :
    Text.upper name = t.sqlKey ∨ Text.upper name = t.daxKey := by
  rw [table?, Option.or_eq_some_iff] at found
  rcases found with found | ⟨-, found⟩
  · have own : t.sqlKey = Text.upper name := by simpa using List.find?_some found
    exact .inl own.symm
  · obtain ⟨k, hk, found⟩ := Option.bind_eq_some_iff.mp found
    obtain ⟨u, hu, known⟩ := h _ k hk
    obtain rfl : u = t := Option.some.inj (hu.symm.trans found)
    exact .inr known.symm

/-- A column that is found is a column of the table, and has the name by which it was found. -/
theorem key_of_column? {name column : String} {c : Column}
    (found : s.column? name column = some c) :
    ∃ t, s.table? name = some t ∧ c ∈ t.columns ∧
      (Text.upper column = Text.upper c.name ∨
        ∃ daxName, c.daxName = some daxName ∧ Text.upper column = Text.upper daxName) := by
  obtain ⟨t, ht, hc⟩ := Option.bind_eq_some_iff.mp found
  refine ⟨t, ht, List.mem_of_find?_eq_some hc, ?_⟩
  have key : c.hasKey (Text.upper column) = true := by simpa using List.find?_some hc
  rw [Column.hasKey, Bool.or_eq_true, beq_iff_eq, Option.any_eq_true] at key
  rcases key with own | ⟨daxName, hd, own⟩
  · exact .inl own.symm
  · exact .inr ⟨daxName, hd, (eq_of_beq own).symm⟩

/-! ## Positions -/

/-- Notes a position under a key that has none. -/
def noteKey (index : List (String × Nat)) (key : String) (position : Nat) : List (String × Nat) :=
  if (index.lookup key).isSome then index else index ++ [(key, position)]

/-- Notes the position of a column under its keys, as far as they are free. -/
def noteColumn (index : List (String × Nat)) (c : Column) (position : Nat) : List (String × Nat) :=
  let index := noteKey index (Text.upper c.name) position
  match c.daxName with
  | some daxName => noteKey index (Text.upper daxName) position
  | none => index

/-- The positions of columns by their keys. -/
def columnIndex (columns : List Column) : List (String × Nat) :=
  columns.zipIdx.foldl (fun index column => noteColumn index column.1 column.2) []

theorem lookup_noteKey (index : List (String × Nat)) (key : String) (position : Nat) (k : String) :
    (noteKey index key position).lookup k =
      (index.lookup k).or (if key == k then some position else none) := by
  rw [noteKey]
  by_cases taken : (index.lookup key).isSome
  · rw [if_pos taken]
    by_cases own : key = k
    · obtain ⟨p, hp⟩ := Option.isSome_iff_exists.mp taken
      simp [← own, hp]
    · simp [own]
  · rw [if_neg taken, List.lookup_append, List.lookup_cons, List.lookup_nil]
    by_cases own : key = k
    · simp [own]
    · have other : (k == key) = false := beq_false_of_ne (Ne.symm own)
      simp [own, other]

theorem lookup_noteColumn (index : List (String × Nat)) (c : Column) (position : Nat)
    (k : String) :
    (noteColumn index c position).lookup k =
      (index.lookup k).or (if c.hasKey k then some position else none) := by
  cases hd : c.daxName with
  | none => simp [noteColumn, lookup_noteKey, Column.hasKey, hd]
  | some daxName =>
    simp only [noteColumn, hd, lookup_noteKey, Column.hasKey, Option.any_some]
    by_cases own : Text.upper c.name = k
    · cases index.lookup k <;> simp [own]
    · simp [own]

/-- **The index of columns finds the first column with a key.** -/
theorem lookup_columnIndex (columns : List Column) (k : String) :
    (columnIndex columns).lookup k = columns.findIdx? (·.hasKey k) := by
  induction columns using List.reverseRecOn with
  | nil => rfl
  | append_singleton columns c ih =>
    rw [columnIndex] at ih ⊢
    rw [List.zipIdx_append, List.foldl_append, List.zipIdx_singleton, List.foldl_cons,
      List.foldl_nil, lookup_noteColumn, ih, List.findIdx?_append]
    by_cases own : c.hasKey k
    · simp [own]
    · simp [own]

/-- Tables with their indices: the position of each SQL key, the key behind each alias, the alias of
each key, and for each table the positions of its columns. -/
structure Registry where
  tables : List Table := []
  positions : List (String × Nat) := []
  aliases : List (String × String) := []
  aliasOf : List (String × String) := []
  columns : List (List (String × Nat)) := []
  deriving Repr

namespace Registry

/-- Adds a table, or puts it in the place of the one with its SQL key, which gives up its alias. -/
def addTable (r : Registry) (t : Table) : Registry :=
  match r.positions.lookup t.sqlKey with
  | some p =>
    let aliases := match r.aliasOf.lookup t.sqlKey with
      | some old => dropAlias r.aliases old
      | none => r.aliases
    { tables := r.tables.set p t
      positions := r.positions
      aliases := takeAlias aliases t.daxKey t.sqlKey
      aliasOf := takeAlias r.aliasOf t.sqlKey t.daxKey
      columns := r.columns.set p (columnIndex t.columns) }
  | none =>
    { tables := r.tables ++ [t]
      positions := r.positions ++ [(t.sqlKey, r.tables.length)]
      aliases := takeAlias r.aliases t.daxKey t.sqlKey
      aliasOf := takeAlias r.aliasOf t.sqlKey t.daxKey
      columns := r.columns ++ [columnIndex t.columns] }

/-- The registry after an addition to the schema. -/
def extend (r : Registry) : Addition → Registry
  | .table t => r.addTable t
  | .relationship _ => r

/-- The registry after additions to an empty schema. -/
def after (additions : List Addition) : Registry :=
  additions.foldl extend {}

theorem after_concat (additions : List Addition) (a : Addition) :
    after (additions ++ [a]) = (after additions).extend a := by
  simp [after]

/-- The position of a table by its SQL name, or by its alias. -/
def position? (r : Registry) (name : String) : Option Nat :=
  let key := Text.upper name
  (r.positions.lookup key).or ((r.aliases.lookup key).bind fun k => r.positions.lookup k)

/-- A table by its position. -/
def table? (r : Registry) (name : String) : Option Table :=
  (r.position? name).bind (r.tables[·]?)

/-- A table and its column with a key, by their positions. -/
def columnAt? (r : Registry) (key : String) (p : Nat) : Option (Table × Column) := do
  let index ← r.columns[p]?
  let i ← index.lookup key
  let t ← r.tables[p]?
  let c ← t.columns[i]?
  some (t, c)

/-- A column of a table by their positions. -/
def column? (r : Registry) (table column : String) : Option Column :=
  (r.position? table).bind fun p => (r.columnAt? (Text.upper column) p).map (·.2)

/-- A column without its table: the preferred tables are tried first, then all in order. -/
def findColumn? (r : Registry) (column : String) (preferred : List String) :
    Option (Table × Column) :=
  (preferred.filterMap r.position? ++ List.range r.tables.length).findSome?
    (r.columnAt? (Text.upper column))

/-- **Every position is that of a table or of a column.** -/
structure InRange (r : Registry) : Prop where
  /-- A key has the position of a table. -/
  positions : ∀ k p, r.positions.lookup k = some p → p < r.tables.length
  /-- The key behind an alias has a position. -/
  aliases : ∀ a k, r.aliases.lookup a = some k → ∃ p, r.positions.lookup k = some p
  /-- Each table has its index of columns. -/
  tables : r.columns.length = r.tables.length
  /-- A key in the index of a table has the position of one of its columns. -/
  columns : ∀ (p : Nat) (t : Table) (index : List (String × Nat)), r.tables[p]? = some t →
    r.columns[p]? = some index → ∀ k i, index.lookup k = some i → i < t.columns.length

end Registry

/-- **A registry mirrors a schema**: it holds the same tables and aliases, and each of its indices
finds what a search finds. -/
structure Mirrors (s : Schema) (r : Registry) : Prop where
  tables : r.tables = s.tables
  positions : ∀ k, r.positions.lookup k = s.tables.findIdx? (·.sqlKey == k)
  aliases : r.aliases = s.aliases
  aliasOf : ∀ k, r.aliasOf.lookup k = (s.tableByKey? k).map (·.daxKey)
  columns : r.columns = s.tables.map fun t => columnIndex t.columns

/-- Where keys are different, a table is replaced at the position of its key. -/
theorem set_eq_replace {tables : List Table} (different : (tables.map (·.sqlKey)).Nodup) {p : Nat}
    (hp : tables.findIdx? (·.sqlKey == t.sqlKey) = some p) :
    tables.set p t = tables.map fun u => if u.sqlKey == t.sqlKey then t else u := by
  obtain ⟨inside, key, -⟩ := List.findIdx?_eq_some_iff_getElem.mp hp
  refine List.ext_getElem (by simp) ?_
  intro i hi hi'
  rw [List.length_set] at hi
  rw [List.getElem_set, List.getElem_map]
  by_cases here : p = i
  · subst here
    simp [key]
  · have other : ¬ tables[i].sqlKey = t.sqlKey := by
      intro same
      have one : tables[p] = tables[i] := List.inj_on_of_nodup_map different
        (List.getElem_mem inside) (List.getElem_mem hi) ((eq_of_beq key).trans same.symm)
      exact here ((different.of_map _).getElem_inj_iff.mp one)
    simp [here, other]

/-- **One table**: the registry still mirrors the schema. -/
theorem Mirrors.addTable {r : Registry} (h : Mirrors s r)
    (different : (s.tables.map (·.sqlKey)).Nodup) (t : Table) :
    Mirrors (s.addTable t) (r.addTable t) := by
  have taken : ∀ k, (takeAlias r.aliasOf t.sqlKey t.daxKey).lookup k =
      ((s.addTable t).tableByKey? k).map (·.daxKey) := by
    intro k
    rw [lookup_takeAlias, tableByKey?_addTable, h.aliasOf]
    by_cases own : k = t.sqlKey
    · simp [own]
    · simp [own]
  have search : s.tableByKey? t.sqlKey =
      (s.tables.findIdx? (·.sqlKey == t.sqlKey)).bind (s.tables[·]?) :=
    List.find?_eq_bind_findIdx?_getElem?
  cases hp : s.tables.findIdx? (·.sqlKey == t.sqlKey) with
  | none =>
    have found : s.tableByKey? t.sqlKey = none := by rw [search, hp]; rfl
    have place : r.positions.lookup t.sqlKey = none := (h.positions _).trans hp
    refine ⟨?_, ?_, ?_, ?_, ?_⟩
    · simp [Registry.addTable, place, Schema.addTable, found, h.tables]
    · intro k
      simp only [Registry.addTable, place, Schema.addTable, found]
      rw [List.lookup_append, h.positions, List.findIdx?_append, h.tables, List.lookup_cons,
        List.lookup_nil]
      by_cases own : t.sqlKey = k
      · simp [own]
      · have other : (k == t.sqlKey) = false := beq_false_of_ne (Ne.symm own)
        simp [own, other]
    · simp [Registry.addTable, place, Schema.addTable, found, h.aliases]
    · simpa [Registry.addTable, place] using taken
    · simp [Registry.addTable, place, Schema.addTable, found, h.columns]
  | some p =>
    obtain ⟨inside, key, -⟩ := List.findIdx?_eq_some_iff_getElem.mp hp
    have found : s.tableByKey? t.sqlKey = some s.tables[p] := by
      rw [search, hp, Option.bind_some, List.getElem?_eq_getElem inside]
    have place : r.positions.lookup t.sqlKey = some p := (h.positions _).trans hp
    have old : r.aliasOf.lookup t.sqlKey = some s.tables[p].daxKey := by
      rw [h.aliasOf, found, Option.map_some]
    refine ⟨?_, ?_, ?_, ?_, ?_⟩
    · simp [Registry.addTable, place, Schema.addTable, found, h.tables, set_eq_replace different hp]
    · intro k
      have keys : ∀ tables : List Table, tables.findIdx? (·.sqlKey == k) =
          (tables.map (·.sqlKey)).findIdx? (· == k) := by
        intro tables
        rw [List.findIdx?_map]
        rfl
      simp only [Registry.addTable, place, Schema.addTable, found]
      rw [h.positions, keys, keys, keys_replace]
    · simp [Registry.addTable, place, Schema.addTable, found, old, h.aliases]
    · simpa [Registry.addTable, place] using taken
    · simp only [Registry.addTable, place, Schema.addTable, found]
      rw [h.columns, ← set_eq_replace different hp, List.map_set]

theorem mirrors_after (additions : List Addition) :
    Mirrors (after additions) (Registry.after additions) := by
  induction additions using List.reverseRecOn with
  | nil => exact ⟨rfl, fun _ => rfl, rfl, fun _ => rfl, rfl⟩
  | append_singleton additions a ih =>
    rw [after_concat, Registry.after_concat]
    cases a with
    | table t => exact ih.addTable (built_after additions).nodup_keys t
    | relationship r => exact ⟨ih.tables, ih.positions, ih.aliases, ih.aliasOf, ih.columns⟩

namespace Mirrors

variable {r : Registry}

theorem lookup_bind (h : Mirrors s r) (k : String) :
    (r.positions.lookup k).bind (r.tables[·]?) = s.tableByKey? k := by
  rw [h.positions, h.tables, tableByKey?, List.find?_eq_bind_findIdx?_getElem?]

/-- Positions are those of tables and columns. -/
theorem inRange (h : Mirrors s r) (owned : s.Owned) : r.InRange where
  positions := by
    intro k p hp
    rw [h.positions] at hp
    rw [h.tables]
    exact (List.findIdx?_eq_some_iff_getElem.mp hp).1
  aliases := by
    intro a k hk
    rw [h.aliases] at hk
    obtain ⟨t, ht, -⟩ := owned a k hk
    rw [← h.lookup_bind, Option.bind_eq_some_iff] at ht
    obtain ⟨p, hp, -⟩ := ht
    exact ⟨p, hp⟩
  tables := by simp [h.columns, h.tables]
  columns := by
    intro p t index ht hindex k i hi
    rw [h.tables] at ht
    rw [h.columns, List.getElem?_map, ht, Option.map_some, Option.some.injEq] at hindex
    rw [← hindex, lookup_columnIndex] at hi
    exact (List.findIdx?_eq_some_iff_getElem.mp hi).1

/-- **Tables are found by position as by search.** -/
theorem table?_eq (h : Mirrors s r) (name : String) : r.table? name = s.table? name := by
  rw [Registry.table?, Registry.position?, Schema.table?]
  cases own : r.positions.lookup (Text.upper name) with
  | some p =>
    have found := h.lookup_bind (Text.upper name)
    rw [own, Option.bind_some] at found
    obtain ⟨inside, -⟩ := List.findIdx?_eq_some_iff_getElem.mp ((h.positions _).symm.trans own)
    rw [← found, h.tables, List.getElem?_eq_getElem inside]
    simp [List.getElem?_eq_getElem inside]
  | none =>
    have found := h.lookup_bind (Text.upper name)
    rw [own, Option.bind_none] at found
    rw [← found, Option.none_or, Option.none_or, Option.bind_assoc, h.aliases]
    simp only [h.lookup_bind]

/-- A column at the position of a table is one of the table's. -/
theorem columnAt?_eq (h : Mirrors s r) (key : String) {p : Nat} (ht : s.tables[p]? = some t) :
    r.columnAt? key p = (t.columnByKey? key).map fun c => (t, c) := by
  have index : r.columns[p]? = some (columnIndex t.columns) := by
    rw [h.columns, List.getElem?_map, ht, Option.map_some]
  rw [Registry.columnAt?, index, h.tables, ht, Table.columnByKey?,
    List.find?_eq_bind_findIdx?_getElem?, ← lookup_columnIndex]
  simp only [Option.bind_eq_bind, Option.bind_some, Option.map_bind]
  refine congrArg _ (funext fun i => ?_)
  exact (Option.map_eq_bind (x := t.columns[i]?)).symm

theorem exists_of_position? (h : Mirrors s r) {name : String} {p : Nat}
    (hp : r.position? name = some p) : ∃ t, s.tables[p]? = some t ∧ s.table? name = some t := by
  have inside : p < s.tables.length := by
    have held : ∀ k, r.positions.lookup k = some p → p < s.tables.length := by
      intro k hk
      rw [h.positions] at hk
      exact (List.findIdx?_eq_some_iff_getElem.mp hk).1
    rw [Registry.position?, Option.or_eq_some_iff] at hp
    rcases hp with own | ⟨-, aliased⟩
    · exact held _ own
    · obtain ⟨k, -, hk⟩ := Option.bind_eq_some_iff.mp aliased
      exact held k hk
  refine ⟨s.tables[p], List.getElem?_eq_getElem inside, ?_⟩
  rw [← h.table?_eq, Registry.table?, hp, Option.bind_some, h.tables,
    List.getElem?_eq_getElem inside]

/-- **Columns are found by position as by search.** -/
theorem column?_eq (h : Mirrors s r) (table column : String) :
    r.column? table column = s.column? table column := by
  rw [Registry.column?, Schema.column?]
  cases hp : r.position? table with
  | none =>
    rw [← h.table?_eq, Registry.table?, hp]
    rfl
  | some p =>
    obtain ⟨t, ht, found⟩ := h.exists_of_position? hp
    rw [found, Option.bind_some, Option.bind_some, h.columnAt?_eq _ ht, Option.map_map]
    exact congrFun Option.map_id_fun' _

/-- A search through tables is one through their positions. -/
theorem firstWithColumn?_eq (h : Mirrors s r) (key : String) {ps : List Nat} {tables : List Table}
    (same : ps.map (s.tables[·]?) = tables.map some) :
    firstWithColumn? key tables = ps.findSome? (r.columnAt? key) := by
  induction ps generalizing tables with
  | nil =>
    cases tables with
    | nil => rfl
    | cons t tables => cases same
  | cons p ps ih =>
    cases tables with
    | nil => cases same
    | cons t tables =>
      rw [List.map_cons, List.map_cons, List.cons.injEq] at same
      rw [firstWithColumn?, List.findSome?_cons, h.columnAt?_eq key same.1, ih same.2]
      cases t.columnByKey? key with
      | none => rfl
      | some c => rfl

/-- **Columns without a table are found by position as by search.** -/
theorem findColumn?_eq (h : Mirrors s r) (column : String) (preferred : List String) :
    r.findColumn? column preferred = s.findColumn? column preferred := by
  refine (h.firstWithColumn?_eq _ ?_).symm
  rw [List.map_append, List.map_append]
  congr 1
  · induction preferred with
    | nil => rfl
    | cons name preferred ih =>
      cases hp : r.position? name with
      | none =>
        have found : s.table? name = none := by
          rw [← h.table?_eq, Registry.table?, hp]
          rfl
        simpa [hp, found] using ih
      | some p =>
        obtain ⟨t, ht, found⟩ := h.exists_of_position? hp
        simpa [hp, found, ht] using ih
  · rw [h.tables]
    refine List.ext_getElem? ?_
    intro i
    by_cases inside : i < s.tables.length
    · simp [inside]
    · simp [inside]

end Mirrors

/-- **Lookups are never stale or out of range.**  After any additions to an empty schema, no two
tables have the same SQL key; every position that an index holds is that of a table or a column, and
lookups by position are those of the schema; a table is found under the SQL name that it has now,
whatever goes by that alias; and a table or a column that is found has now, in capitals, the name by
which it was found. -/
theorem lookups_after (additions : List Addition) :
    let s := after additions
    let r := Registry.after additions
    (s.tables.map (·.sqlKey)).Nodup ∧
      r.tables = s.tables ∧ r.InRange ∧
      (∀ name, r.table? name = s.table? name) ∧
      (∀ name column, r.column? name column = s.column? name column) ∧
      (∀ column preferred, r.findColumn? column preferred = s.findColumn? column preferred) ∧
      (∀ t ∈ s.tables, ∀ name, Text.upper name = t.sqlKey → s.table? name = some t) ∧
      (∀ name t, s.table? name = some t →
        t ∈ s.tables ∧ (Text.upper name = t.sqlKey ∨ Text.upper name = t.daxKey)) ∧
      ∀ name column c, s.column? name column = some c →
        ∃ t, s.table? name = some t ∧ c ∈ t.columns ∧
          (Text.upper column = Text.upper c.name ∨
            ∃ daxName, c.daxName = some daxName ∧ Text.upper column = Text.upper daxName) := by
  intro s r
  have built : s.Built := built_after additions
  have mirrors : Mirrors s r := mirrors_after additions
  refine ⟨built.nodup_keys, mirrors.tables, mirrors.inRange built.owned, mirrors.table?_eq,
    mirrors.column?_eq, mirrors.findColumn?_eq, ?_, ?_, ?_⟩
  · intro t ht name same
    rw [table?_congr (y := t.name) same]
    exact built.byName ht
  · intro name t found
    exact ⟨mem_of_table? found, built.owned.key_of_table? found⟩
  · intro name column c found
    exact key_of_column? found

end Schema

end MeasureSql
