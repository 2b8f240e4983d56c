import MeasureSql.Proofs.Keyed
import MeasureSql.Proofs.Schema.JoinPath
import MeasureSql.Proofs.Text.Capitals

/-!
# Tables that are joined

A list of tables is joined from the first one on, each along the shortest path from a table that has
been joined.  Tables go by several names: relationships may use the SQL name of a table or its
alias, in any case of letters, and what has been joined is remembered by its key.  In a schema in
which every table is found by its alias, all names of a table have one key, and every table of the
list is joined.

## Main definitions

* `Schema.Built` — the schemas that can be built.
* `Schema.WellNamed` — every table is found by both of its names.
* `Schema.Accounted` — every key that has been joined has its clause.

## Main results

* `Schema.Built.byName` — in a schema that was built, every table is found by its SQL name.
* `Schema.accounted_foldl`, `Schema.accounted_joinTables` — one path, and a list of tables.
* `Schema.exists_clause_of_joinClauses` — every table of the list has a clause, but for the first.
-/

namespace MeasureSql

namespace Schema

variable {s : Schema} {x y name : String} {t : Table}

/-! ### Schemas that are built -/

/-- The schemas to which tables and relationships were added one by one. -/
inductive Built : Schema → Prop
  | empty : Built .empty
  | addTable {s : Schema} (h : Built s) (t : Table) : Built (s.addTable t)
  | addRelationship {s : Schema} (h : Built s) (r : Relationship) : Built (s.addRelationship r)

theorem keys_replace (tables : List Table) (t : Table) :
    (tables.map fun u => if u.sqlKey == t.sqlKey then t else u).map (·.sqlKey) =
      tables.map (·.sqlKey) :=
  Keyed.map_replace Table.sqlKey t

/-- No two tables of a schema that was built have the same key. -/
theorem Built.nodup_keys (h : s.Built) : (s.tables.map (·.sqlKey)).Nodup := by
  induction h with
  | empty => exact List.nodup_nil
  | addTable _ t ih =>
    unfold Schema.addTable
    split
    · rwa [keys_replace]
    · next none =>
      rw [List.map_append, List.nodup_append]
      refine ⟨ih, List.nodup_singleton _, fun k hk l hl same => ?_⟩
      obtain ⟨u, hu, rfl⟩ := List.mem_map.mp hk
      refine List.find?_eq_none.mp none u hu ?_
      simpa [same] using hl
  | addRelationship _ r ih => exact ih

/-- Where keys are different, a table is found by its SQL key. -/
theorem tableByKey?_eq_some (different : (s.tables.map (·.sqlKey)).Nodup) (ht : t ∈ s.tables) :
    s.tableByKey? t.sqlKey = some t :=
  Keyed.find?_of_mem Table.sqlKey different ht

/-- Where keys are different, a table is found by its SQL name. -/
theorem table?_name (different : (s.tables.map (·.sqlKey)).Nodup) (ht : t ∈ s.tables) :
    s.table? t.name = some t := by
  have first := tableByKey?_eq_some different ht
  unfold Table.sqlKey at first
  simp only [table?, first, Option.some_or]

/-- **In a schema that was built every table is found by its SQL name.** -/
theorem Built.byName (h : s.Built) (ht : t ∈ s.tables) : s.table? t.name = some t :=
  table?_name h.nodup_keys ht

theorem built_retail : retail.Built :=
  .addRelationship (.addRelationship (.addRelationship (.addRelationship (.addTable (.addTable
    (.addTable (.addTable (.addTable .empty salesTable) dateTable) productTable) storeTable)
      customerTable) _) _) _) _

/-- Every table is found by its SQL name and by its name in expressions. -/
structure WellNamed (s : Schema) : Prop where
  byName : ∀ t ∈ s.tables, s.table? t.name = some t
  byAlias : ∀ t ∈ s.tables, s.table? t.effectiveName = some t

/-! ### Names and keys -/

theorem mem_of_table? (h : s.table? x = some t) : t ∈ s.tables := by
  unfold table? at h
  rcases Option.or_eq_some_iff.mp h with h | ⟨-, h⟩
  · exact List.mem_of_find?_eq_some h
  · obtain ⟨key, -, h⟩ := Option.bind_eq_some_iff.mp h
    exact List.mem_of_find?_eq_some h

theorem mem_of_firstWithColumn? {key : String} {tables : List Table} {found : Table × Column}
    (h : firstWithColumn? key tables = some found) :
    found.1 ∈ tables ∧ found.1.columnByKey? key = some found.2 := by
  induction tables with
  | nil => cases h
  | cons tb tables ih =>
    rw [firstWithColumn?] at h
    split at h
    · next c hc =>
      cases h
      exact ⟨List.mem_cons_self, hc⟩
    · exact ⟨List.mem_cons_of_mem _ (ih h).1, (ih h).2⟩

/-- A column that is found without its table belongs to a table of the schema. -/
theorem mem_of_findColumn? {column : String} {preferred : List String} {found : Table × Column}
    (h : s.findColumn? column preferred = some found) :
    found.1 ∈ s.tables ∧ found.1.columnByKey? (Text.upper column) = some found.2 := by
  obtain ⟨mem, hcolumn⟩ := mem_of_firstWithColumn? h
  refine ⟨?_, hcolumn⟩
  rcases List.mem_append.mp mem with row | listed
  · obtain ⟨name, -, hname⟩ := List.mem_filterMap.mp row
    exact mem_of_table? hname
  · exact listed

theorem table?_congr (h : Text.upper x = Text.upper y) : s.table? x = s.table? y := by
  unfold table?
  rw [h]

theorem tableKey_of_table? (h : s.table? x = some t) : s.tableKey x = t.sqlKey := by
  simp [tableKey, sqlTableName?, h, Table.sqlKey]

theorem tableKey_of_none (h : s.table? x = none) : s.tableKey x = Text.upper x := by
  simp [tableKey, sqlTableName?, h]

/-- The key of a table does not depend on the case of the letters of its name. -/
theorem tableKey_congr (h : Text.upper x = Text.upper y) : s.tableKey x = s.tableKey y := by
  have same := table?_congr (s := s) h
  cases found : s.table? y with
  | none => rw [tableKey_of_none found, tableKey_of_none (same.trans found), h]
  | some t => rw [tableKey_of_table? found, tableKey_of_table? (same.trans found)]

theorem tableKey_upper (x : String) : s.tableKey (Text.upper x) = s.tableKey x :=
  tableKey_congr (Text.upper_upper x)

/-- A name with the key of a table is a name of the table. -/
theorem WellNamed.table?_eq_some (named : s.WellNamed) (ht : t ∈ s.tables)
    (h : s.tableKey x = t.sqlKey) : s.table? x = some t := by
  cases found : s.table? x with
  | none =>
    rw [tableKey_of_none found] at h
    have own := named.byName t ht
    rw [← table?_congr (x := x) h, found] at own
    cases own
  | some u =>
    rw [tableKey_of_table? found] at h
    rw [← named.byName u (mem_of_table? found), table?_congr h, named.byName t ht]

/-- All names of a table have its key. -/
theorem WellNamed.tableKey_of_mem (named : s.WellNamed) (h : x ∈ s.namesOf name) :
    s.tableKey x = s.tableKey name := by
  unfold namesOf at h
  split at h
  · next t found =>
    have ht := mem_of_table? found
    rw [tableKey_of_table? found]
    simp only [List.mem_cons, List.not_mem_nil, or_false] at h
    rcases h with rfl | rfl | rfl
    · exact tableKey_of_table? found
    · exact tableKey_of_table? (named.byName t ht)
    · exact tableKey_of_table? (named.byAlias t ht)
  · rw [List.mem_singleton.mp h]

/-- The node of a table has its key. -/
theorem WellNamed.tableKey_node (named : s.WellNamed) {a : String} (h : s.node? name = some a) :
    s.tableKey a = s.tableKey name := by
  obtain ⟨x, hx, rfl⟩ := List.mem_map.mp (List.mem_of_find?_eq_some h)
  rw [tableKey_upper, named.tableKey_of_mem hx]

/-- A path between tables with different keys leads from a node of the one to a node of the
other. -/
theorem WellNamed.chain_of_joinPath (named : s.WellNamed) {p : List Relationship}
    (different : s.tableKey x ≠ s.tableKey y) (run : s.joinPath x y = .ok p) :
    ∃ a b, s.Chain a p b ∧ s.tableKey a = s.tableKey x ∧ s.tableKey b = s.tableKey y := by
  cases ha : s.node? x with
  | none => simp [joinPath, different, ha] at run
  | some a =>
    cases hb : s.node? y with
    | none => simp [joinPath, different, ha, hb] at run
    | some b =>
      have keyA := named.tableKey_node ha
      have keyB := named.tableKey_node hb
      have apart : a ≠ b := by
        rintro rfl
        exact different (keyA.symm.trans keyB)
      rcases s.joinPath_of_nodes different ha hb apart with ⟨p', run', -, chain, -⟩ | ⟨run', -⟩
      · obtain rfl := Except.ok.inj (run'.symm.trans run)
        exact ⟨a, b, chain, keyA, keyB⟩
      · simp [run'] at run

/-! ### Joining -/

/-- The clause that joins a table along a relationship. -/
def clauseFor (s : Schema) (table : String) (r : Relationship) : String :=
  "JOIN " ++ ((s.table? table).map (·.fullName)).getD table ++ " ON " ++ r.joinCondition

/-- What has been joined is remembered by its key, and each key but the first has its clause. -/
structure Accounted (s : Schema) (first : String) (j : Joined) : Prop where
  names : ∀ n ∈ j.names, s.tableKey n ∈ j.keys
  clauses : ∀ k ∈ j.keys, k = first ∨
    ∃ table, ∃ r ∈ s.relationships, s.tableKey table = k ∧ s.clauseFor table r ∈ j.clauses

variable {first : String} {j : Joined} {r : Relationship}

theorem accounted_joinAlong (h : Accounted s first j) (hr : r ∈ s.relationships) :
    Accounted s first (s.joinAlong j r) ∧ j.keys ⊆ (s.joinAlong j r).keys := by
  unfold joinAlong
  generalize (if j.keys.contains (s.tableKey r.fromTable) then r.toTable else r.fromTable) = table
  dsimp only
  split
  · exact ⟨h, List.Subset.refl _⟩
  · refine ⟨⟨?_, ?_⟩, List.subset_append_left _ _⟩
    · intro n hn
      rcases List.mem_append.mp hn with hn | hn
      · exact List.mem_append_left _ (h.names n hn)
      · rw [List.mem_singleton.mp hn]
        exact List.mem_append_right _ (List.mem_singleton_self _)
    · intro k hk
      rcases List.mem_append.mp hk with hk | hk
      · rcases h.clauses k hk with same | ⟨other, r', hr', key, clause⟩
        · exact .inl same
        · exact .inr ⟨other, r', hr', key, List.mem_append_left _ clause⟩
      · refine .inr ⟨table, r, hr, (List.mem_singleton.mp hk).symm, List.mem_append_right _ ?_⟩
        exact List.mem_singleton_self _

/-- A relationship from a table that has been joined joins the table at its other end. -/
theorem mem_keys_joinAlong {a b : String} (hr : s.Joins a b r) (ha : s.tableKey a ∈ j.keys) :
    s.tableKey b ∈ (s.joinAlong j r).keys := by
  have added : ∀ table, s.tableKey table ∈
      (if j.keys.contains (s.tableKey table) then j
      else ⟨j.keys ++ [s.tableKey table], j.names ++ [table],
        j.clauses ++ ["JOIN " ++ ((s.table? table).map (·.fullName)).getD table ++ " ON "
          ++ r.joinCondition]⟩ : Joined).keys := by
    intro table
    split
    · next held => exact List.contains_iff_mem.mp held
    · exact List.mem_append_right _ (List.mem_singleton_self _)
  unfold joinAlong
  dsimp only
  obtain ⟨-, -, ⟨rfl, rfl⟩ | ⟨rfl, rfl⟩⟩ := hr
  · rw [Relationship.fromKey, tableKey_upper] at ha
    rw [if_pos (List.contains_iff_mem.mpr ha), Relationship.toKey, tableKey_upper]
    exact added _
  · rw [Relationship.toKey, tableKey_upper] at ha
    rw [Relationship.fromKey, tableKey_upper]
    by_cases held : s.tableKey r.fromTable ∈ j.keys
    · -- both ends have been joined, and nothing happens
      rw [if_pos (List.contains_iff_mem.mpr held), if_pos (List.contains_iff_mem.mpr ha)]
      exact held
    · rw [if_neg (mt List.contains_iff_mem.mp held)]
      exact added _

/-- **Along a path** every table on the way is joined. -/
theorem accounted_foldl {a b : String} {p : List Relationship} (h : Accounted s first j)
    (chain : s.Chain a p b) (ha : s.tableKey a ∈ j.keys) :
    Accounted s first (p.foldl s.joinAlong j) ∧ j.keys ⊆ (p.foldl s.joinAlong j).keys ∧
      s.tableKey b ∈ (p.foldl s.joinAlong j).keys := by
  induction p generalizing a j with
  | nil => exact ⟨h, List.Subset.refl _, chain_nil.mp chain ▸ ha⟩
  | cons r p ih =>
    obtain ⟨m, hr, rest⟩ := chain
    obtain ⟨h', grown⟩ := accounted_joinAlong h hr.1
    obtain ⟨done, grown', hb⟩ := ih h' rest (mem_keys_joinAlong hr ha)
    exact ⟨done, List.Subset.trans grown grown', hb⟩

theorem firstShortest?_mem {α : Type} {xs : List (List α)} {x : List α}
    (h : firstShortest? xs = some x) : x ∈ xs := by
  induction xs generalizing x with
  | nil => cases h
  | cons head rest ih =>
    rw [firstShortest?] at h
    split at h
    · next y hy =>
      split at h
      · obtain rfl := Option.some.inj h
        exact List.mem_cons_of_mem _ (ih hy)
      · obtain rfl := Option.some.inj h
        exact List.mem_cons_self
    · obtain rfl := Option.some.inj h
      exact List.mem_cons_self

/-- **Every table of a list is joined**, and has its clause. -/
theorem accounted_joinTables (named : s.WellNamed) {base : String} {tables : List String}
    {j' : Joined} (h : Accounted s first j) (run : s.joinTables base tables j = .ok j') :
    Accounted s first j' ∧ j.keys ⊆ j'.keys ∧ ∀ n ∈ tables, s.tableKey n ∈ j'.keys := by
  induction tables generalizing j with
  | nil =>
    obtain rfl := Except.ok.inj run
    exact ⟨h, List.Subset.refl _, fun n hn => absurd hn List.not_mem_nil⟩
  | cons table tables ih =>
    rw [joinTables] at run
    split at run
    · next held =>
      obtain ⟨done, grown, rest⟩ := ih h run
      exact ⟨done, grown, List.forall_mem_cons.mpr ⟨grown (List.contains_iff_mem.mp held), rest⟩⟩
    · next new =>
      split at run
      · cases run
      · next path shortest =>
        obtain ⟨n, hn, found⟩ := List.mem_filterMap.mp (firstShortest?_mem shortest)
        have hpath : s.joinPath n table = .ok path := by
          cases result : s.joinPath n table with
          | error e => simp [result, Except.toOption] at found
          | ok p => simpa [result, Except.toOption] using found
        have different : s.tableKey n ≠ s.tableKey table := fun same =>
          new (List.contains_iff_mem.mpr (same ▸ h.names n hn))
        obtain ⟨a, b, chain, keyA, keyB⟩ := named.chain_of_joinPath different hpath
        have held : s.tableKey a ∈ j.keys := by
          rw [keyA]
          exact h.names n hn
        obtain ⟨h', grown, reached⟩ := accounted_foldl h chain held
        obtain ⟨done, grown', rest⟩ := ih h' run
        exact ⟨done, List.Subset.trans grown grown',
          List.forall_mem_cons.mpr ⟨grown' (keyB ▸ reached), rest⟩⟩

/-- **Every table of a list has a clause that joins it**, unless it is the first one. -/
theorem exists_clause_of_joinClauses (named : s.WellNamed) {base : String} {tables : List String}
    {clauses : List String} (run : s.joinClauses (base :: tables) = .ok clauses)
    (ht : t ∈ s.tables) (listed : t.name ∈ base :: tables) :
    s.table? base = some t ∨
      ∃ r ∈ s.relationships, "JOIN " ++ t.fullName ++ " ON " ++ r.joinCondition ∈ clauses := by
  have start : Accounted s (s.tableKey base) ⟨[s.tableKey base], [base], []⟩ :=
    ⟨fun n hn => by simp [List.mem_singleton.mp hn], fun k hk => .inl (List.mem_singleton.mp hk)⟩
  rw [joinClauses] at run
  cases result : s.joinTables base tables ⟨[s.tableKey base], [base], []⟩ with
  | error e => simp [result, Except.map] at run
  | ok j =>
    obtain rfl : j.clauses = clauses := by simpa [result, Except.map] using run
    obtain ⟨done, grown, joined⟩ := accounted_joinTables named start result
    have key : t.sqlKey ∈ j.keys := by
      rw [← tableKey_of_table? (named.byName t ht)]
      rcases List.mem_cons.mp listed with same | listed
      · exact grown (same ▸ List.mem_singleton_self _)
      · exact joined _ listed
    rcases done.clauses _ key with same | ⟨table, r, hr, same, clause⟩
    · exact .inl (named.table?_eq_some ht same.symm)
    · refine .inr ⟨r, hr, ?_⟩
      rwa [clauseFor, named.table?_eq_some ht same] at clause

end Schema

end MeasureSql
