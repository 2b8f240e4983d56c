import Mathlib.Data.List.Pairwise
import MeasureSql.Proofs.Schema.Joins

/-!
# The order of joins

A list of tables is joined from the first one on: each further table is attached by a branch, the
shortest path from a table that has been joined.  On such a branch no table is met that has been
joined before, since the rest of the branch from there on would have been shorter.  So every
relationship of a branch joins one new table to one that is joined already, and no table is joined
twice.

This is so in schemas in which no name of one table is a name of another, and relationships call
tables by their SQL names.  There the nodes of the graph are keys of tables, and a table has a path
to another one exactly if their keys are connected.

## Main definitions

* `Schema.Plain` — the names of tables are apart, and relationships use SQL names.
* `Schema.Walk` — a chain with the tables on the way.
* `Schema.Branch`, `Schema.Attached` — a branch, and all branches that join a list of tables.

## Main results

* `Schema.Plain.joinPath_spec` — paths between tables are shortest chains between keys.
* `Schema.foldl_joinAlong` — one branch: each of its relationships joins one new table.
* `Schema.attached_of_joinTables`, `Schema.exists_joinTables_iff` — a list of tables.
* `Schema.joinClauses_wellFormed` — the clauses of a list of tables.
-/

namespace MeasureSql

/-- The keys of a table's names. -/
def Table.keys (t : Table) : List String :=
  [t.sqlKey, t.daxKey]

namespace Schema

/-! ## Names that are apart -/

/-- No name of one table is a name of another one. -/
def NamesApart (tables : List Table) : Prop :=
  tables.Pairwise fun t u => ∀ k ∈ t.keys, k ∉ u.keys

instance (tables : List Table) : Decidable (NamesApart tables) :=
  inferInstanceAs (Decidable (tables.Pairwise fun t u => ∀ k ∈ t.keys, k ∉ u.keys))

theorem NamesApart.nodup_keys {tables : List Table} (apart : NamesApart tables) :
    (tables.map (·.sqlKey)).Nodup := by
  refine List.pairwise_map.mpr (List.Pairwise.imp ?_ apart)
  intro t u h same
  exact h t.sqlKey (by simp [Table.keys]) (by simp [Table.keys, same])

/-- A key is that of one table only. -/
theorem NamesApart.eq_of_key {tables : List Table} (apart : NamesApart tables) {t u : Table}
    (ht : t ∈ tables) (hu : u ∈ tables) {k : String} (hk : k ∈ t.keys) (hk' : k ∈ u.keys) :
    t = u := by
  by_contra different
  have : Std.Symm fun t u : Table => ∀ k ∈ t.keys, k ∉ u.keys :=
    ⟨fun t u h k hk hk' => h k hk' hk⟩
  exact apart.forall ht hu different k hk hk'

/-- **A plain schema**: the names of its tables are apart, and its relationships call tables by
their SQL names. -/
structure Plain (s : Schema) : Prop where
  apart : NamesApart s.tables
  ends : ∀ r ∈ s.relationships, ∀ k ∈ [r.fromKey, r.toKey], ∃ t ∈ s.tables, t.sqlKey = k

variable {s : Schema} {x y a b : String} {t : Table} {r : Relationship}

namespace Plain

theorem table?_of_key (plain : s.Plain) (ht : t ∈ s.tables) (hx : Text.upper x = t.sqlKey) :
    s.table? x = some t := by
  rw [table?, hx, tableByKey?_eq_some plain.apart.nodup_keys ht, Option.some_or]

/-- A name with the key of a table is a name of the table. -/
theorem table?_of_tableKey (plain : s.Plain) (ht : t ∈ s.tables) (hx : s.tableKey x = t.sqlKey) :
    s.table? x = some t := by
  cases found : s.table? x with
  | none =>
    rw [tableKey_of_none found] at hx
    rw [plain.table?_of_key ht hx] at found
    cases found
  | some u =>
    rw [tableKey_of_table? found] at hx
    have hu := mem_of_table? found
    rw [plain.apart.eq_of_key hu ht (k := u.sqlKey) (by simp [Table.keys])
      (by simp [Table.keys, hx])]

/-- What relationships call a table is its key, in capitals. -/
theorem tableKey_end (plain : s.Plain) (hr : r ∈ s.relationships)
    (hx : Text.upper x ∈ [r.fromKey, r.toKey]) : s.tableKey x = Text.upper x := by
  obtain ⟨t, ht, same⟩ := plain.ends r hr _ hx
  rw [tableKey_of_table? (plain.table?_of_key ht same.symm), same]

theorem exists_of_isNode (plain : s.Plain) (h : s.isNode a = true) :
    ∃ t ∈ s.tables, t.sqlKey = a := by
  simp only [isNode, activeRelationships, List.any_eq_true, List.mem_filter, Bool.or_eq_true,
    beq_iff_eq] at h
  obtain ⟨r, ⟨hr, -⟩, own⟩ := h
  refine plain.ends r hr a ?_
  rcases own with rfl | rfl
  · simp
  · simp

/-- **The node of a table is its key.** -/
theorem node?_eq_some_iff (plain : s.Plain) :
    s.node? x = some a ↔ s.tableKey x = a ∧ s.isNode a = true := by
  have only : ∀ {a}, s.node? x = some a → s.tableKey x = a := by
    intro a h
    obtain ⟨u, hu, key⟩ := plain.exists_of_isNode (List.find?_some h)
    obtain ⟨n, hn, same⟩ := List.mem_map.mp (List.mem_of_find?_eq_some h)
    rw [namesOf] at hn
    cases found : s.table? x with
    | none =>
      simp only [found, List.mem_singleton] at hn
      rw [hn, ← key] at same
      rw [plain.table?_of_key hu same] at found
      cases found
    | some t =>
      have ht := mem_of_table? found
      rw [tableKey_of_table? found]
      simp only [found, List.mem_cons, List.not_mem_nil, or_false] at hn
      rcases hn with rfl | rfl | rfl
      · rw [plain.table?_of_key hu (same.trans key.symm), Option.some.injEq] at found
        rw [← found, key]
      · exact same
      · have own : t = u := plain.apart.eq_of_key ht hu (k := a)
          (by simp [Table.keys, Table.daxKey, same]) (by simp [Table.keys, key])
        rw [own, key]
  constructor
  · intro h
    exact ⟨only h, List.find?_some h⟩
  · rintro ⟨key, node⟩
    obtain ⟨t, ht, own⟩ := plain.exists_of_isNode node
    have found := plain.table?_of_tableKey ht (key.trans own.symm)
    have some : (s.node? x).isSome := by
      rw [node?, List.find?_isSome]
      refine ⟨t.sqlKey, ?_, own ▸ node⟩
      simp [namesOf, found, Table.sqlKey]
    obtain ⟨b, hb⟩ := Option.isSome_iff_exists.mp some
    rw [hb, ← only hb, key]

end Plain

/-! ## Paths between keys -/

theorem Joins.isNode (h : s.Joins a b r) : s.isNode a = true ∧ s.isNode b = true := by
  obtain ⟨hr, active, ends⟩ := h
  simp only [Schema.isNode, activeRelationships, List.any_eq_true, List.mem_filter, Bool.or_eq_true,
    beq_iff_eq]
  rcases ends with ⟨rfl, rfl⟩ | ⟨rfl, rfl⟩
  · exact ⟨⟨r, ⟨hr, active⟩, .inl rfl⟩, ⟨r, ⟨hr, active⟩, .inr rfl⟩⟩
  · exact ⟨⟨r, ⟨hr, active⟩, .inr rfl⟩, ⟨r, ⟨hr, active⟩, .inl rfl⟩⟩

/-- Different keys that are connected are nodes. -/
theorem Connected.isNode (h : s.Connected a b) (different : a ≠ b) :
    s.isNode a = true ∧ s.isNode b = true := by
  constructor
  · rcases Relation.ReflTransGen.cases_head h with same | ⟨m, ⟨r, hr⟩, -⟩
    · exact absurd same different
    · exact hr.isNode.1
  · rcases Relation.ReflTransGen.cases_tail h with same | ⟨m, -, ⟨r, hr⟩⟩
    · exact absurd same.symm different
    · exact hr.isNode.2

/-- **Paths between tables are shortest chains between their keys**, and there is one exactly if the
keys are connected. -/
theorem Plain.joinPath_spec (plain : s.Plain) (x y : String) :
    ((∃ p, s.joinPath x y = .ok p) ↔ s.Connected (s.tableKey x) (s.tableKey y)) ∧
      ∀ p, s.joinPath x y = .ok p → s.Chain (s.tableKey x) p (s.tableKey y) ∧
        ∀ q, s.Chain (s.tableKey x) q (s.tableKey y) → p.length ≤ q.length := by
  by_cases same : s.tableKey x = s.tableKey y
  · have run : s.joinPath x y = .ok [] := by simp [joinPath, same]
    rw [same]
    refine ⟨⟨fun _ => .refl, fun _ => ⟨[], run⟩⟩, ?_⟩
    intro p hp
    obtain rfl := Except.ok.inj (run.symm.trans hp)
    exact ⟨rfl, fun q _ => Nat.zero_le _⟩
  · have unconnected : (s.node? x = none ∨ s.node? y = none) →
        ¬ s.Connected (s.tableKey x) (s.tableKey y) := by
      intro none connected
      obtain ⟨nodeX, nodeY⟩ := connected.isNode same
      rcases none with none | none
      · rw [plain.node?_eq_some_iff.mpr ⟨rfl, nodeX⟩] at none
        cases none
      · rw [plain.node?_eq_some_iff.mpr ⟨rfl, nodeY⟩] at none
        cases none
    cases hx : s.node? x with
    | none => simp [joinPath, same, hx, unconnected (.inl hx)]
    | some a =>
      cases hy : s.node? y with
      | none => simp [joinPath, same, hx, hy, unconnected (.inr hy)]
      | some b =>
        obtain ⟨rfl, -⟩ := plain.node?_eq_some_iff.mp hx
        obtain ⟨rfl, -⟩ := plain.node?_eq_some_iff.mp hy
        rcases s.joinPath_of_nodes same hx hy same with
          ⟨p, run, connected, chain, -, shortest⟩ | ⟨run, away⟩
        · refine ⟨⟨fun _ => connected, fun _ => ⟨p, run⟩⟩, ?_⟩
          intro p' run'
          obtain rfl := Except.ok.inj (run.symm.trans run')
          exact ⟨chain, shortest⟩
        · simp [run, away]

/-! ## Branches -/

/-- A chain with the tables on the way, each by the name under which it is joined. -/
def Walk (s : Schema) : String → List (String × Relationship) → String → Prop
  | a, [], b => a = b
  | a, (name, r) :: rest, b => s.Joins a (s.tableKey name) r ∧ s.Walk (s.tableKey name) rest b

theorem walk_append {p q : List (String × Relationship)} :
    s.Walk a (p ++ q) b ↔ ∃ m, s.Walk a p m ∧ s.Walk m q b := by
  induction p generalizing a with
  | nil => simp [Walk]
  | cons step p ih =>
    simp only [List.cons_append, Walk, ih]
    constructor
    · rintro ⟨hr, m, hp, hq⟩
      exact ⟨m, ⟨hr, hp⟩, hq⟩
    · rintro ⟨m, ⟨hr, hp⟩, hq⟩
      exact ⟨hr, m, hp, hq⟩

theorem Walk.chain {p : List (String × Relationship)} (h : s.Walk a p b) :
    s.Chain a (p.map (·.2)) b := by
  induction p generalizing a with
  | nil => exact h
  | cons step p ih => exact ⟨_, h.1, ih h.2⟩

/-- A walk ends at its last table. -/
theorem Walk.mem_keys {p : List (String × Relationship)} (h : s.Walk a p b) :
    b = a ∨ b ∈ p.map fun step => s.tableKey step.1 := by
  induction p generalizing a with
  | nil => exact .inl h.symm
  | cons step p ih =>
    rcases ih h.2 with same | later
    · exact .inr (by simp [same])
    · exact .inr (List.mem_cons_of_mem _ later)

/-- What has been joined after further tables. -/
def Joined.with (s : Schema) (j : Joined) (plan : List (String × Relationship)) : Joined :=
  ⟨j.keys ++ plan.map fun step => s.tableKey step.1, j.names ++ plan.map (·.1),
    j.clauses ++ plan.map fun step => s.clauseFor step.1 step.2⟩

theorem Joined.with_nil (j : Joined) : j.with s [] = j := by
  simp [Joined.with]

theorem Joined.with_append (j : Joined) (p q : List (String × Relationship)) :
    (j.with s p).with s q = j.with s (p ++ q) := by
  simp [Joined.with]

variable {j : Joined}

/-- **A relationship from a table that has been joined to one that has not** joins the latter. -/
theorem Plain.joinAlong_eq (plain : s.Plain) (hr : s.Joins a b r) (ha : a ∈ j.keys)
    (hb : b ∉ j.keys) : ∃ name, s.tableKey name = b ∧ s.joinAlong j r = j.with s [(name, r)] := by
  have keyFrom : s.tableKey r.fromTable = r.fromKey := plain.tableKey_end hr.1 List.mem_cons_self
  have keyTo : s.tableKey r.toTable = r.toKey :=
    plain.tableKey_end hr.1 (List.mem_cons_of_mem _ List.mem_cons_self)
  obtain ⟨-, -, ⟨rfl, rfl⟩ | ⟨rfl, rfl⟩⟩ := hr
  · refine ⟨r.toTable, keyTo, ?_⟩
    simp [joinAlong, keyFrom, keyTo, ha, hb, Joined.with, clauseFor]
  · refine ⟨r.fromTable, keyFrom, ?_⟩
    simp [joinAlong, keyFrom, hb, Joined.with, clauseFor]

/-- **Each relationship of a shortest chain joins one new table.**  The invariant is that no table
that has been joined is nearer to the end than the rest of the chain is long. -/
theorem foldl_joinAlong (plain : s.Plain) {p : List Relationship} (ha : a ∈ j.keys)
    (chain : s.Chain a p b) (far : ∀ k ∈ j.keys, ∀ q, s.Chain k q b → p.length ≤ q.length) :
    ∃ branch, branch.map (·.2) = p ∧ p.foldl s.joinAlong j = j.with s branch ∧
      s.Walk a branch b ∧ (branch.map fun step => s.tableKey step.1).Nodup ∧
      ∀ step ∈ branch, s.tableKey step.1 ∉ j.keys := by
  induction p generalizing a j with
  | nil => exact ⟨[], rfl, (Joined.with_nil j).symm, chain, List.nodup_nil, by simp⟩
  | cons r p ih =>
    obtain ⟨m, hr, rest⟩ := chain
    have new : m ∉ j.keys := by
      intro held
      have := far m held p rest
      simp only [List.length_cons] at this
      omega
    obtain ⟨name, rfl, step⟩ := plain.joinAlong_eq hr ha new
    have far' : ∀ k ∈ (j.with s [(name, r)]).keys, ∀ q, s.Chain k q b → p.length ≤ q.length := by
      intro k hk q hq
      rcases List.mem_append.mp hk with held | own
      · have := far k held q hq
        simp only [List.length_cons] at this
        omega
      · rw [List.map_singleton, List.mem_singleton] at own
        have := far a ha (r :: q) ⟨k, own ▸ hr, hq⟩
        simpa using this
    obtain ⟨branch, rels, run, walk, different, fresh⟩ := ih (j := j.with s [(name, r)])
      (List.mem_append_right _ (by simp)) rest far'
    have fresh' : ∀ step ∈ branch,
        s.tableKey step.1 ∉ j.keys ∧ s.tableKey step.1 ≠ s.tableKey name := by
      intro step hstep
      simpa [Joined.with] using fresh step hstep
    refine ⟨(name, r) :: branch, by simp [rels], ?_, ⟨hr, walk⟩, ?_, ?_⟩
    · rw [List.foldl_cons, step, run, Joined.with_append, List.singleton_append]
    · rw [List.map_cons, List.nodup_cons]
      refine ⟨?_, different⟩
      intro again
      obtain ⟨step, hstep, same⟩ := List.mem_map.mp again
      exact (fresh' step hstep).2 same
    · exact List.forall_mem_cons.mpr ⟨new, fun step hstep => (fresh' step hstep).1⟩

/-- **A branch**: tables that are attached, one after the other, to those that have been joined,
along the shortest path to a table.  Each of them is as far from those that had been joined as it
is from the beginning of the branch. -/
structure Branch (s : Schema) (joined : List String) (table : String)
    (branch : List (String × Relationship)) : Prop where
  path : ∃ start ∈ joined, s.joinPath start table = .ok (branch.map (·.2)) ∧
    s.Walk (s.tableKey start) branch (s.tableKey table)
  shortest : ∀ front name r back, branch = front ++ (name, r) :: back →
    ∀ n ∈ joined, ∀ q, s.joinPath n name = .ok q → front.length + 1 ≤ q.length
  new : ∀ step ∈ branch, s.tableKey step.1 ∉ joined.map s.tableKey
  different : (branch.map fun step => s.tableKey step.1).Nodup

/-- **A list of tables is attached**: a table that has been joined needs nothing, and each other one
a branch. -/
inductive Attached (s : Schema) : List String → List String → List (String × Relationship) → Prop
  | nil {joined : List String} : Attached s joined [] []
  | held {joined rest : List String} {table : String} {plan : List (String × Relationship)}
      (held : s.tableKey table ∈ joined.map s.tableKey) (later : Attached s joined rest plan) :
      Attached s joined (table :: rest) plan
  | branch {joined rest : List String} {table : String}
      {branch plan : List (String × Relationship)} (attached : Branch s joined table branch)
      (later : Attached s (joined ++ branch.map (·.1)) rest plan) :
      Attached s joined (table :: rest) (branch ++ plan)

namespace Attached

variable {joined tables : List String} {plan : List (String × Relationship)}

/-- No table is joined twice. -/
theorem nodup (h : Attached s joined tables plan) (different : (joined.map s.tableKey).Nodup) :
    ((joined ++ plan.map (·.1)).map s.tableKey).Nodup := by
  induction h with
  | nil => simpa using different
  | held _ _ ih => exact ih different
  | @branch joined _ table branch plan attached _ ih =>
    have names : (branch ++ plan).map (·.1) = branch.map (·.1) ++ plan.map (·.1) := List.map_append
    rw [names, ← List.append_assoc]
    refine ih ?_
    rw [List.map_append, List.map_map, List.nodup_append]
    refine ⟨different, attached.different, ?_⟩
    intro k hk l hl same
    obtain ⟨step, hstep, rfl⟩ := List.mem_map.mp hl
    rw [same] at hk
    exact attached.new step hstep hk

/-- Every table of the list is joined. -/
theorem mem_keys (h : Attached s joined tables plan) :
    ∀ table ∈ tables, s.tableKey table ∈ (joined ++ plan.map (·.1)).map s.tableKey := by
  induction h with
  | nil => simp
  | held held _ ih =>
    refine List.forall_mem_cons.mpr ⟨?_, ih⟩
    rw [List.map_append]
    exact List.mem_append_left _ held
  | @branch joined _ table branch plan attached _ ih =>
    have reached : s.tableKey table ∈ (joined ++ branch.map (·.1)).map s.tableKey := by
      obtain ⟨start, hs, -, walk⟩ := attached.path
      rw [List.map_append, List.map_map]
      rcases walk.mem_keys with same | own
      · rw [same]
        exact List.mem_append_left _ (List.mem_map_of_mem hs)
      · exact List.mem_append_right _ own
    have names : (branch ++ plan).map (·.1) = branch.map (·.1) ++ plan.map (·.1) := List.map_append
    rw [names, ← List.append_assoc]
    refine List.forall_mem_cons.mpr ⟨?_, ih⟩
    rw [List.map_append]
    exact List.mem_append_left _ reached

/-- **Every relationship joins its table to one that has been joined.** -/
theorem joins (h : Attached s joined tables plan) {before later : List (String × Relationship)}
    {name : String} (hplan : plan = before ++ (name, r) :: later) :
    ∃ n ∈ joined ++ before.map (·.1), s.Joins (s.tableKey n) (s.tableKey name) r := by
  induction h generalizing before with
  | nil => simp at hplan
  | held _ _ ih => exact ih hplan
  | @branch joined _ table branch plan attached _ ih =>
    obtain ⟨start, hs, -, walk⟩ := attached.path
    rcases List.append_eq_append_iff.mp hplan with ⟨mid, rfl, hmid⟩ | ⟨mid, rfl, hmid⟩
    · -- the table is joined after this branch
      obtain ⟨n, hn, joins⟩ := ih hmid
      exact ⟨n, by simpa [or_assoc] using hn, joins⟩
    · cases mid with
      | nil =>
        have first : plan = [] ++ (name, r) :: later := hmid.symm
        obtain ⟨n, hn, joins⟩ := ih first
        exact ⟨n, by simpa using hn, joins⟩
      | cons step mid =>
        -- the table is joined on this branch
        rw [List.cons_append, List.cons.injEq] at hmid
        obtain ⟨rfl, -⟩ := hmid
        obtain ⟨m, front, hr, -⟩ := walk_append.mp walk
        rcases front.mem_keys with same | own
        · rw [same] at hr
          exact ⟨start, List.mem_append_left _ hs, hr⟩
        · obtain ⟨step, hstep, rfl⟩ := List.mem_map.mp own
          exact ⟨step.1, List.mem_append_right _ (List.mem_map_of_mem hstep), hr⟩

end Attached

/-! ## Lists of tables -/

theorem firstShortest?_eq_none {α : Type} {xs : List (List α)} (h : firstShortest? xs = none) :
    xs = [] := by
  cases xs with
  | nil => rfl
  | cons x xs =>
    rw [firstShortest?] at h
    split at h
    · split at h <;> cases h
    · cases h

theorem firstShortest?_le {α : Type} {xs : List (List α)} {x : List α}
    (h : firstShortest? xs = some x) : ∀ y ∈ xs, x.length ≤ y.length := by
  induction xs generalizing x with
  | nil => cases h
  | cons head rest ih =>
    rw [firstShortest?] at h
    cases hrest : firstShortest? rest with
    | none =>
      simp only [hrest, Option.some.injEq] at h
      simp [firstShortest?_eq_none hrest, h]
    | some y =>
      have least := ih hrest
      simp only [hrest] at h
      by_cases shorter : y.length < head.length
      · rw [if_pos shorter, Option.some.injEq] at h
        subst h
        exact List.forall_mem_cons.mpr ⟨Nat.le_of_lt shorter, least⟩
      · rw [if_neg shorter, Option.some.injEq] at h
        subst h
        refine List.forall_mem_cons.mpr ⟨Nat.le_refl _, ?_⟩
        intro z hz
        have := least z hz
        omega

/-- The shortest path from a table that has been joined. -/
theorem shortest_spec {names : List String} {table : String} {path : List Relationship}
    (h : firstShortest? (names.filterMap fun n => (s.joinPath n table).toOption) = some path) :
    (∃ n ∈ names, s.joinPath n table = .ok path) ∧
      ∀ n ∈ names, ∀ q, s.joinPath n table = .ok q → path.length ≤ q.length := by
  have mem : ∀ p, p ∈ names.filterMap (fun n => (s.joinPath n table).toOption) ↔
      ∃ n ∈ names, s.joinPath n table = .ok p := by
    intro p
    rw [List.mem_filterMap]
    refine exists_congr fun n => and_congr_right fun _ => ?_
    cases s.joinPath n table <;> simp [Except.toOption]
  refine ⟨(mem path).mp (firstShortest?_mem h), ?_⟩
  intro n hn q hq
  exact firstShortest?_le h q ((mem q).mpr ⟨n, hn, hq⟩)

/-- **One table**: the shortest path from the tables that have been joined is a branch. -/
theorem Plain.branch_of_shortest (plain : s.Plain) {table : String} {path : List Relationship}
    (keys : j.keys = j.names.map s.tableKey)
    (h : firstShortest? (j.names.filterMap fun n => (s.joinPath n table).toOption) = some path) :
    ∃ branch, path.foldl s.joinAlong j = j.with s branch ∧ Branch s j.names table branch := by
  obtain ⟨⟨start, hs, run⟩, least⟩ := shortest_spec h
  obtain ⟨chain, -⟩ := (plain.joinPath_spec start table).2 path run
  have far : ∀ k ∈ j.keys, ∀ q, s.Chain k q (s.tableKey table) → path.length ≤ q.length := by
    intro k hk q hq
    rw [keys, List.mem_map] at hk
    obtain ⟨n, hn, rfl⟩ := hk
    have spec := plain.joinPath_spec n table
    obtain ⟨p, hp⟩ := spec.1.mpr (connected_iff_exists_chain.mpr ⟨q, hq⟩)
    exact Nat.le_trans (least n hn p hp) ((spec.2 p hp).2 q hq)
  obtain ⟨branch, rels, joined, walk, different, new⟩ :=
    foldl_joinAlong plain (keys ▸ List.mem_map_of_mem hs) chain far
  refine ⟨branch, joined, ⟨start, hs, rels ▸ run, walk⟩, ?_, keys ▸ new, different⟩
  rintro front name r back rfl n hn q hq
  -- a shorter way to a table on the branch would be a shorter way to its end
  obtain ⟨m, hfront, hr, hback⟩ := walk_append.mp walk
  obtain ⟨hchain, -⟩ := (plain.joinPath_spec n name).2 q hq
  have way : s.Chain (s.tableKey n) (q ++ back.map (·.2)) (s.tableKey table) :=
    chain_append.mpr ⟨_, hchain, hback.chain⟩
  have := far _ (keys ▸ List.mem_map_of_mem hn) _ way
  rw [← rels] at this
  simp only [List.length_append, List.length_map, List.length_cons] at this
  omega

/-- **A list of tables that is joined** is attached. -/
theorem attached_of_joinTables (plain : s.Plain) {base : String} {tables : List String}
    {j' : Joined} (keys : j.keys = j.names.map s.tableKey)
    (run : s.joinTables base tables j = .ok j') :
    ∃ plan, j' = j.with s plan ∧ Attached s j.names tables plan := by
  induction tables generalizing j with
  | nil =>
    obtain rfl := Except.ok.inj run
    exact ⟨[], (Joined.with_nil j).symm, .nil⟩
  | cons table tables ih =>
    rw [joinTables] at run
    by_cases held : s.tableKey table ∈ j.keys
    · rw [if_pos (List.contains_iff_mem.mpr held)] at run
      obtain ⟨plan, hj, later⟩ := ih keys run
      exact ⟨plan, hj, .held (keys ▸ held) later⟩
    · rw [if_neg (mt List.contains_iff_mem.mp held)] at run
      cases hpath : firstShortest?
          (j.names.filterMap fun n => (s.joinPath n table).toOption) with
      | none => simp [hpath] at run
      | some path =>
        simp only [hpath] at run
        obtain ⟨branch, joined, attached⟩ := plain.branch_of_shortest keys hpath
        have keys' : (j.with s branch).keys = (j.with s branch).names.map s.tableKey := by
          simp [Joined.with, keys]
        rw [joined] at run
        obtain ⟨plan, hj, later⟩ := ih keys' run
        exact ⟨branch ++ plan, by rw [hj, Joined.with_append], .branch attached later⟩

/-- **A list of tables can be joined** exactly if the key of each is connected to that of the first
one. -/
theorem exists_joinTables_iff (plain : s.Plain) {base : String} {tables : List String}
    (keys : j.keys = j.names.map s.tableKey) (begun : base ∈ j.names)
    (connected : ∀ k ∈ j.keys, s.Connected (s.tableKey base) k) :
    (∃ j', s.joinTables base tables j = .ok j') ↔
      ∀ table ∈ tables, s.Connected (s.tableKey base) (s.tableKey table) := by
  induction tables generalizing j with
  | nil => simp [joinTables]
  | cons table tables ih =>
    rw [joinTables, List.forall_mem_cons]
    by_cases held : s.tableKey table ∈ j.keys
    · rw [if_pos (List.contains_iff_mem.mpr held), ih keys begun connected]
      simp [connected _ held]
    · rw [if_neg (mt List.contains_iff_mem.mp held)]
      cases hpath : firstShortest?
          (j.names.filterMap fun n => (s.joinPath n table).toOption) with
      | none =>
        have away : ¬ s.Connected (s.tableKey base) (s.tableKey table) := by
          intro way
          obtain ⟨p, hp⟩ := (plain.joinPath_spec base table).1.mpr way
          have none := List.filterMap_eq_nil_iff.mp (firstShortest?_eq_none hpath) base begun
          simp [hp, Except.toOption] at none
        simp [away]
      | some path =>
        obtain ⟨branch, joined, attached⟩ := plain.branch_of_shortest keys hpath
        obtain ⟨start, hs, -, walk⟩ := attached.path
        have hstart : s.Connected (s.tableKey base) (s.tableKey start) :=
          connected _ (keys ▸ List.mem_map_of_mem hs)
        have way : s.Connected (s.tableKey base) (s.tableKey table) :=
          hstart.trans (connected_iff_exists_chain.mpr ⟨_, walk.chain⟩)
        have connected' : ∀ k ∈ (j.with s branch).keys, s.Connected (s.tableKey base) k := by
          intro k hk
          rcases List.mem_append.mp hk with hk | hk
          · exact connected k hk
          · obtain ⟨step, hstep, rfl⟩ := List.mem_map.mp hk
            obtain ⟨front, back, rfl⟩ := List.append_of_mem hstep
            obtain ⟨m, hfront, hr, -⟩ := walk_append.mp walk
            refine hstart.trans (.tail ?_ ⟨_, hr⟩)
            exact connected_iff_exists_chain.mpr ⟨_, hfront.chain⟩
        have keys' : (j.with s branch).keys = (j.with s branch).names.map s.tableKey := by
          simp [Joined.with, keys]
        simp only [joined]
        rw [ih keys' (List.mem_append_left _ begun) connected']
        simp [way]

/-- **The clauses of a list of tables are a well-formed join.**  In a plain schema the tables can be
joined exactly if each is the first one or has a path from it.  Then there is one clause for each
table that is joined to the first one; no table is joined twice, and each of the list is joined;
each clause is about an active relationship between its table and one joined before; and each table
of the list that had not been joined was attached along the shortest path from any that had. -/
theorem joinClauses_wellFormed (plain : s.Plain) (base : String) (tables : List String) :
    ((∃ clauses, s.joinClauses (base :: tables) = .ok clauses) ↔
      ∀ table ∈ tables, s.tableKey table = s.tableKey base ∨ ∃ p, s.joinPath base table = .ok p) ∧
    ∀ clauses, s.joinClauses (base :: tables) = .ok clauses →
      ∃ plan : List (String × Relationship),
        clauses = plan.map (fun step => s.clauseFor step.1 step.2) ∧
        ((base :: plan.map (·.1)).map s.tableKey).Nodup ∧
        (∀ table ∈ base :: tables,
          s.tableKey table ∈ (base :: plan.map (·.1)).map s.tableKey) ∧
        (∀ before name r later, plan = before ++ (name, r) :: later →
          ∃ n ∈ base :: before.map (·.1), s.Joins (s.tableKey n) (s.tableKey name) r) ∧
        Attached s [base] tables plan := by
  let j : Joined := ⟨[s.tableKey base], [base], []⟩
  have keys : j.keys = j.names.map s.tableKey := rfl
  constructor
  · have connected : ∀ k ∈ j.keys, s.Connected (s.tableKey base) k := by
      intro k hk
      rw [List.mem_singleton.mp hk]
      exact .refl
    have runs : (∃ clauses, s.joinClauses (base :: tables) = .ok clauses) ↔
        ∃ j', s.joinTables base tables j = .ok j' := by
      rw [joinClauses]
      cases s.joinTables base tables j <;> simp [Except.map]
    rw [runs, exists_joinTables_iff plain keys (List.mem_singleton_self base) connected]
    refine forall₂_congr fun table _ => ?_
    rw [(plain.joinPath_spec base table).1]
    constructor
    · exact .inr
    · rintro (same | way)
      · rw [same]
        exact .refl
      · exact way
  · intro clauses run
    rw [joinClauses] at run
    cases result : s.joinTables base tables j with
    | error e => simp [j, result, Except.map] at run
    | ok j' =>
      obtain rfl : j'.clauses = clauses := by simpa [j, result, Except.map] using run
      obtain ⟨plan, rfl, attached⟩ := attached_of_joinTables plain keys result
      refine ⟨plan, by simp [j, Joined.with], attached.nodup (by simp [j]), ?_, ?_, attached⟩
      · refine List.forall_mem_cons.mpr ⟨by simp, attached.mem_keys⟩
      · intro before name r later hplan
        exact attached.joins hplan

theorem plain_retail : retail.Plain :=
  ⟨by decide +kernel, by decide +kernel⟩

/-- Products and customers are joined to stores through the sales, which are joined once. -/
theorem joinClauses_store_product_customer :
    retail.Plain ∧ ∃ plan : List (String × Relationship),
      retail.joinClauses ["Store", "Product", "Customer"] =
        .ok (plan.map fun step => retail.clauseFor step.1 step.2) ∧
      plan.length = 3 ∧ (("Store" :: plan.map (·.1)).map retail.tableKey).Nodup ∧
      Attached retail ["Store"] ["Product", "Customer"] plan := by
  refine ⟨plain_retail, ?_⟩
  obtain ⟨-, spec⟩ := joinClauses_wellFormed plain_retail "Store" ["Product", "Customer"]
  have three : (retail.joinClauses ["Store", "Product", "Customer"]).toOption.map (·.length) =
      some 3 := by decide +kernel
  cases run : retail.joinClauses ["Store", "Product", "Customer"] with
  | error e => simp [run, Except.toOption] at three
  | ok clauses =>
    obtain ⟨plan, rfl, nodup, -, -, attached⟩ := spec clauses run
    have length : plan.length = 3 := by simpa [run, Except.toOption] using three
    exact ⟨plan, rfl, length, nodup, attached⟩

end Schema

end MeasureSql
