import MeasureSql.Proofs.Json.ReadBack
import MeasureSql.Proofs.Schema.Spelling
import MeasureSql.Schema.Document

/-!
# Schemas that are written and read back

The document of a schema holds its tables and relationships but none of its indices: when it is read
the tables are added again in order, and then the relationships.  No two tables of a schema that was
built have the same key, so none replaces another one, and all that depends on tables and
relationships alone is the same as before.  The aliases may be others, since tables that were
replaced claimed theirs at another time.

## Main results

* `Json.record?_obj` — a record is read from an object with its fields in order.
* `Column.ofJson?_toJson`, `Table.ofJson?_toJson`, `Relationship.ofJson?_toJson` — what a schema
  holds is read back.
* `Schema.joinPath_congr` — what a path depends on.
* `Schema.ofText?_toText_after` — a schema is read back from its document.
-/

namespace MeasureSql

/-! ## Records -/

namespace Json

/-- Members that name the free places in their order fill them. -/
theorem fillFields?_append {fields : List (List String)} {members : List (String × Json)}
    (done : List (Option Json))
    (named : members.map (fun m => fieldIndex? fields m.1) =
      (List.range' done.length members.length).map some) :
    fillFields? fields members (done ++ List.replicate members.length none) =
      some (done ++ members.map fun m => some m.2) := by
  induction members generalizing done with
  | nil => simp [fillFields?]
  | cons m ms ih =>
    simp only [List.map_cons, List.length_cons, List.range'_succ, List.cons.injEq] at named
    have place : (done ++ List.replicate (ms.length + 1) none)[done.length]? = some none := by
      simp [List.replicate_succ]
    have filled : (done ++ List.replicate (ms.length + 1) none).set done.length (some m.2) =
        (done ++ [some m.2]) ++ List.replicate ms.length none := by
      simp [List.replicate_succ]
    simp only [List.length_cons, fillFields?, named.1, place, filled]
    rw [ih (done ++ [some m.2]) (by simpa using named.2)]
    simp

/-- **An object with the fields of a record in their order** has their values. -/
theorem record?_obj {fields : List (List String)} {members : List (String × Json)}
    (named : members.map (fun m => fieldIndex? fields m.1) =
      (List.range' 0 members.length).map some) (all : members.length = fields.length) :
    record? fields (.obj members) = some (members.map fun m => some m.2) := by
  have start : fields.map (fun _ => (none : Option Json)) =
      [] ++ List.replicate members.length none := by
    rw [List.map_const', all, List.nil_append]
  rw [record?, start, fillFields?_append [] named, List.nil_append]

/-- A list is read back if its items are. -/
theorem list?_map {α : Type} {read : Json → Option α} {write : α → Json} {xs : List α}
    (back : ∀ x ∈ xs, read (write x) = some x) : list? read (.arr (xs.map write)) = some xs := by
  rw [list?]
  induction xs with
  | nil => rfl
  | cons x xs ih =>
    rw [List.forall_mem_cons] at back
    simp [List.mapM_cons, back.1, ih back.2]

theorem optionalText?_optional (s : Option String) : optionalText? (optional s) = some s := by
  cases s with
  | none => rfl
  | some s => rfl

theorem hasNumber_optional (s : Option String) : (optional s).hasNumber = false := by
  cases s with
  | none => rfl
  | some s => rfl

theorem itemsHaveNumber_map {α : Type} {write : α → Json} {xs : List α}
    (plain : ∀ x ∈ xs, (write x).hasNumber = false) : itemsHaveNumber (xs.map write) = false := by
  induction xs with
  | nil => rfl
  | cons x xs ih =>
    rw [List.forall_mem_cons] at plain
    rw [List.map_cons, itemsHaveNumber, plain.1, ih plain.2, Bool.or_false]

end Json

/-! ## Columns, tables and relationships -/

theorem ColumnType.ofName?_name (t : ColumnType) : ofName? t.name = some t := by
  cases t <;> rfl

theorem Cardinality.ofName?_name (c : Cardinality) : ofName? c.name = some c := by
  cases c <;> rfl

theorem CrossFilter.ofName?_name (c : CrossFilter) : ofName? c.name = some c := by
  cases c <;> rfl

namespace Column

theorem ofJson?_toJson (c : Column) : ofJson? c.toJson = some c := by
  rw [ofJson?, toJson, Json.record?_obj rfl rfl]
  simp [Json.required?, Json.withDefault?, Json.text?, Json.boolean?, Json.word?,
    Json.optionalText?_optional, ColumnType.ofName?_name]

theorem hasNumber_toJson (c : Column) : c.toJson.hasNumber = false := by
  simp [toJson, Json.hasNumber, Json.membersHaveNumber, Json.hasNumber_optional]

end Column

namespace Table

theorem ofJson?_toJson (t : Table) : ofJson? t.toJson = some t := by
  have columns := Json.list?_map fun c (_ : c ∈ t.columns) => c.ofJson?_toJson
  have primaryKey : Json.list? Json.text? (.strings t.primaryKey) = some t.primaryKey :=
    Json.list?_map fun _ _ => rfl
  rw [ofJson?, toJson, Json.record?_obj rfl rfl]
  simp [Json.required?, Json.withDefault?, Json.text?, Json.optionalText?_optional, columns,
    primaryKey]

theorem hasNumber_toJson (t : Table) : t.toJson.hasNumber = false := by
  have columns := Json.itemsHaveNumber_map fun c (_ : c ∈ t.columns) => c.hasNumber_toJson
  have primaryKey : (Json.strings t.primaryKey).hasNumber = false :=
    Json.itemsHaveNumber_map fun _ _ => rfl
  simp [toJson, Json.hasNumber, Json.membersHaveNumber, Json.hasNumber_optional, columns,
    primaryKey]

end Table

namespace Relationship

theorem ofJson?_toJson (r : Relationship) : ofJson? r.toJson = some r := by
  rw [ofJson?, toJson, Json.record?_obj rfl rfl]
  simp [Json.required?, Json.withDefault?, Json.text?, Json.boolean?, Json.word?,
    Cardinality.ofName?_name, CrossFilter.ofName?_name]

theorem hasNumber_toJson (r : Relationship) : r.toJson.hasNumber = false := by
  simp [toJson, Json.hasNumber, Json.membersHaveNumber]

end Relationship

namespace Schema

variable {s s' : Schema} {name other : String} {t u : Table}

/-! ## Documents -/

theorem ofJson?_toJson (s : Schema) :
    ofJson? s.toJson = some (ofLists s.tables s.relationships) := by
  have tables := Json.list?_map fun t (_ : t ∈ s.tables) => t.ofJson?_toJson
  have relationships := Json.list?_map fun r (_ : r ∈ s.relationships) => r.ofJson?_toJson
  rw [ofJson?, toJson, Json.record?_obj rfl rfl]
  simp [Json.withDefault?, tables, relationships]

theorem hasNumber_toJson (s : Schema) : s.toJson.hasNumber = false := by
  have tables := Json.itemsHaveNumber_map fun t (_ : t ∈ s.tables) => t.hasNumber_toJson
  have relationships :=
    Json.itemsHaveNumber_map fun r (_ : r ∈ s.relationships) => r.hasNumber_toJson
  simp [toJson, Json.hasNumber, Json.membersHaveNumber, tables, relationships]

/-- **The document of any schema is read**, and its tables and relationships are added in order. -/
theorem ofText?_toText (s : Schema) :
    ofText? s.toText = some (ofLists s.tables s.relationships) := by
  rw [ofText?, toText, Json.read?_pretty s.hasNumber_toJson, Option.bind_some, ofJson?_toJson]

/-- Where keys are different no table replaces another one. -/
theorem tables_foldl_addTable {tables : List Table} (different : (tables.map (·.sqlKey)).Nodup) :
    (tables.foldl addTable empty).tables = tables ∧
      (tables.foldl addTable empty).relationships = [] := by
  induction tables using List.reverseRecOn with
  | nil => exact ⟨rfl, rfl⟩
  | append_singleton tables t ih =>
    rw [List.map_append, List.nodup_append] at different
    obtain ⟨before, -, apart⟩ := different
    obtain ⟨same, none⟩ := ih before
    have new : (tables.foldl addTable empty).tableByKey? t.sqlKey = .none := by
      rw [tableByKey?, List.find?_eq_none, same]
      intro u hu own
      exact apart _ (List.mem_map_of_mem hu) _ (by simp) (eq_of_beq own)
    rw [List.foldl_concat]
    simp only [addTable, new, same, none, and_self]

theorem tables_ofLists_of_nodup {tables : List Table} (different : (tables.map (·.sqlKey)).Nodup)
    (relationships : List Relationship) :
    (ofLists tables relationships).tables = tables ∧
      (ofLists tables relationships).relationships = relationships := by
  obtain ⟨same, none⟩ := tables_foldl_addTable different
  rw [ofLists, foldl_addRelationship]
  exact ⟨same, by rw [none, List.nil_append]⟩

/-! ## What depends on tables and relationships alone -/

section Relationships

variable (same : s'.relationships = s.relationships)
include same

theorem steps_congr (node : String) : s'.steps node = s.steps node := by
  rw [steps, steps, activeRelationships, activeRelationships, same]

theorem isNode_congr (key : String) : s'.isNode key = s.isNode key := by
  rw [isNode, isNode, activeRelationships, activeRelationships, same]

theorem search_congr (goal : String) (rounds : Nat) (f : Frontier) :
    s'.search goal rounds f = s.search goal rounds f := by
  induction rounds generalizing f with
  | zero => rfl
  | succ rounds ih =>
    simp only [search, steps_congr same]
    split
    · rfl
    · split
      · rfl
      · exact ih _

/-- The shortest chain between two nodes depends on the relationships only. -/
theorem shortestChain?_congr (source target : String) :
    s'.shortestChain? source target = s.shortestChain? source target := by
  rw [shortestChain?, shortestChain?, search_congr same, rounds, rounds, same]

/-- **The path between two tables** depends on the relationships and on what the two names mean. -/
theorem joinPath_congr (source : s'.table? name = s.table? name)
    (target : s'.table? other = s.table? other) :
    s'.joinPath name other = s.joinPath name other := by
  have key : ∀ {x}, s'.table? x = s.table? x → s'.tableKey x = s.tableKey x := by
    intro x h
    rw [tableKey, tableKey, sqlTableName?, sqlTableName?, h]
  have node : ∀ {x}, s'.table? x = s.table? x → s'.node? x = s.node? x := by
    intro x h
    rw [node?, node?, namesOf, namesOf, h, funext (isNode_congr same)]
  have missing : ∀ {x}, s'.table? x = s.table? x →
      s'.missingNode x name other = s.missingNode x name other := by
    intro x h
    rw [missingNode, missingNode, h]
  rw [joinPath, joinPath, key source, key target, node source, node target, missing source,
    missing target]
  simp only [shortestChain?_congr same]

end Relationships

/-- **Schemas survive their documents.**  Whatever was added to an empty schema, the text of its
document is read as a schema with the same tables and the same relationships in the same order.  So
the active relationships, the nodes that they join and the steps from each node are the same, and
the restored schema has the same document; a column is found in the same table when none is
preferred; and a table called by its SQL name is found, with its columns and the paths between two
such tables. -/
theorem ofText?_toText_after (additions : List Addition) :
    let s := after additions
    ∃ s', ofText? s.toText = some s' ∧
      s'.tables = s.tables ∧ s'.relationships = s.relationships ∧
      s'.activeRelationships = s.activeRelationships ∧
      (∀ key, s'.isNode key = s.isNode key) ∧ (∀ node, s'.steps node = s.steps node) ∧
      s'.toText = s.toText ∧
      (∀ column, s'.findColumn? column [] = s.findColumn? column []) ∧
      ∀ t ∈ s.tables, ∀ name, Text.upper name = t.sqlKey →
        s.table? name = some t ∧ s'.table? name = some t ∧
        (∀ column, s'.column? name column = s.column? name column) ∧
        ∀ u ∈ s.tables, ∀ other, Text.upper other = u.sqlKey →
          s'.joinPath name other = s.joinPath name other := by
  intro s
  have built : s.Built := built_after additions
  have restored := built_ofLists s.tables s.relationships
  obtain ⟨tables, relationships⟩ := tables_ofLists_of_nodup built.nodup_keys s.relationships
  refine ⟨ofLists s.tables s.relationships, ofText?_toText s, tables, relationships, ?_, ?_, ?_, ?_,
    ?_, ?_⟩
  · rw [activeRelationships, relationships, activeRelationships]
  · exact isNode_congr relationships
  · exact steps_congr relationships
  · rw [toText, toText, toJson, toJson, tables, relationships]
  · intro column
    rw [findColumn?, findColumn?, tables, List.filterMap_nil, List.filterMap_nil]
  · have found : ∀ t ∈ s.tables, ∀ name, Text.upper name = t.sqlKey →
        s.table? name = some t ∧ (ofLists s.tables s.relationships).table? name = some t := by
      intro t ht name own
      refine ⟨(table?_congr own).trans (built.byName ht), ?_⟩
      exact (table?_congr own).trans (restored.byName (by rwa [tables]))
    intro t ht name own
    obtain ⟨before, now⟩ := found t ht name own
    refine ⟨before, now, ?_, ?_⟩
    · intro column
      rw [column?, column?, before, now]
    · intro u hu other called
      obtain ⟨before', now'⟩ := found u hu other called
      exact joinPath_congr relationships (now.trans before.symm) (now'.trans before'.symm)

end Schema

end MeasureSql
