import Mathlib.Data.List.Forall2
import MeasureSql.Proofs.Schema.JoinPlan
import MeasureSql.Proofs.Schema.Lookup
import MeasureSql.Schema.Document

/-!
# How relationships spell their tables

A relationship may call a table by its SQL name or by its name in expressions, in letters of any
case.  The nodes of the graph of relationships are the names in capitals.  So the case of letters
never matters, and the choice of the name does not matter for a table that has one name throughout:
there are paths between the same tables, along the relationships at the same positions.  A table
that goes by both of its names is two nodes, and a path does not lead from the one to the other.

The search is followed in two graphs at once.  Where nodes of the one match nodes of the other, one
to one, and each relationship has ends that match, the search tries matching steps and comes to
matching arrivals.

## Main definitions

* `Schema.Matching` — two graphs with matching nodes and relationships.
* `Schema.Respelled` — relationships that call the same tables by other names.
* `Schema.OnlyName`, `Schema.KeepsNode` — names that can be replaced by others.
* `Schema.SamePath` — paths along the relationships at the same positions.

## Main results

* `Schema.Matching.tryStep`, `Schema.Matching.search` — the steps of a node, and a whole search.
* `Schema.Matching.shortestChain?` — matching chains are found.
* `Schema.joinPath_respelled` — paths do not depend on the spelling of names.
-/

namespace MeasureSql

namespace Schema

open List

/-! ## Graphs that match -/

/-- Relationships that match, as do their ends. -/
structure EndsMatched (N : String → String → Prop) (P : Relationship → Relationship → Prop)
    (r r' : Relationship) : Prop where
  relationship : P r r'
  fromKey : N r.fromKey r'.fromKey
  toKey : N r.toKey r'.toKey

/-- **Two graphs match**: nodes match one to one, and the active relationships in their order. -/
structure Matching (s s' : Schema) (N : String → String → Prop)
    (P : Relationship → Relationship → Prop) : Prop where
  unique : Relator.BiUnique N
  active : Forall₂ (EndsMatched N P) s.activeRelationships s'.activeRelationships
  length : s.relationships.length = s'.relationships.length

/-- Steps along matching relationships to matching nodes. -/
structure StepMatched (N : String → String → Prop) (P : Relationship → Relationship → Prop)
    (step step' : String × Relationship) : Prop where
  node : N step.1 step'.1
  via : P step.2 step'.2

/-- Arrivals at matching nodes, along matching relationships. -/
structure ArrivalMatched (N : String → String → Prop) (P : Relationship → Relationship → Prop)
    (a a' : Arrival) : Prop where
  node : N a.node a'.node
  parent : N a.parent a'.parent
  via : P a.via a'.via

/-- What is known of matching nodes. -/
structure FrontierMatched (N : String → String → Prop) (P : Relationship → Relationship → Prop)
    (f f' : Frontier) : Prop where
  seen : Forall₂ N f.seen f'.seen
  arrivals : Forall₂ (ArrivalMatched N P) f.arrivals f'.arrivals
  queue : Forall₂ N f.queue f'.queue

/-- Steps of a node that end alike: at the goal, or with what is known then. -/
inductive TriedAlike (N : String → String → Prop) (P : Relationship → Relationship → Prop) :
    Except (List Arrival) Frontier → Except (List Arrival) Frontier → Prop
  | error {as as' : List Arrival} (h : Forall₂ (ArrivalMatched N P) as as') :
      TriedAlike N P (.error as) (.error as')
  | ok {f f' : Frontier} (h : FrontierMatched N P f f') : TriedAlike N P (.ok f) (.ok f')

/-- Searches that end alike. -/
inductive EndedAlike (N : String → String → Prop) (P : Relationship → Relationship → Prop) :
    Outcome → Outcome → Prop
  | reached {as as' : List Arrival} (h : Forall₂ (ArrivalMatched N P) as as') :
      EndedAlike N P (.reached as) (.reached as')
  | exhausted : EndedAlike N P .exhausted .exhausted
  | unfinished : EndedAlike N P .unfinished .unfinished

namespace Matching

variable {s s' : Schema} {N : String → String → Prop} {P : Relationship → Relationship → Prop}
  {a a' b b' : String}

theorem eq_iff (h : Matching s s' N P) (ha : N a a') (hb : N b b') : a = b ↔ a' = b' := by
  constructor
  · rintro rfl
    exact h.unique.2 ha hb
  · rintro rfl
    exact h.unique.1 ha hb

theorem beq_eq (h : Matching s s' N P) (ha : N a a') (hb : N b b') : (a == b) = (a' == b') := by
  rw [Bool.eq_iff_iff, beq_iff_eq, beq_iff_eq]
  exact h.eq_iff ha hb

/-- **Matching nodes have matching steps**, in the same order. -/
theorem steps (h : Matching s s' N P) (ha : N a a') :
    Forall₂ (StepMatched N P) (s.steps a) (s'.steps a') := by
  have leaving : Forall₂ (EndsMatched N P) (s.activeRelationships.filter (·.fromKey == a))
      (s'.activeRelationships.filter (·.fromKey == a')) := by
    refine rel_filter ?_ h.active
    intro r r' hr
    simp only [h.beq_eq hr.fromKey ha]
  have arriving : Forall₂ (EndsMatched N P)
      (s.activeRelationships.filter fun r => r.toKey == a && r.fromKey != a)
      (s'.activeRelationships.filter fun r => r.toKey == a' && r.fromKey != a') := by
    refine rel_filter ?_ h.active
    intro r r' hr
    simp only [bne, h.beq_eq hr.toKey ha, h.beq_eq hr.fromKey ha]
  refine rel_append (rel_map ?_ (rel_reverse leaving)) (rel_map ?_ (rel_reverse arriving))
  · intro r r' hr
    exact ⟨hr.toKey, hr.relationship⟩
  · intro r r' hr
    exact ⟨hr.fromKey, hr.relationship⟩

/-- **Matching steps are tried alike.** -/
theorem tryStep (h : Matching s s' N P) {goal goal' current current' : String}
    (hgoal : N goal goal') (hcurrent : N current current')
    {left left' : List (String × Relationship)} (hleft : Forall₂ (StepMatched N P) left left')
    {f f' : Frontier} (hf : FrontierMatched N P f f') :
    TriedAlike N P (Schema.tryStep goal current left f)
      (Schema.tryStep goal' current' left' f') := by
  induction hleft generalizing f f' with
  | nil => exact .ok hf
  | @cons step step' left left' hstep _ ih =>
    have seen : step.1 ∈ f.seen ↔ step'.1 ∈ f'.seen := rel_mem h.unique hstep.node hf.seen
    have arrived : Forall₂ (ArrivalMatched N P) (⟨step.1, current, step.2⟩ :: f.arrivals)
        (⟨step'.1, current', step'.2⟩ :: f'.arrivals) :=
      .cons ⟨hstep.node, hcurrent, hstep.via⟩ hf.arrivals
    simp only [Schema.tryStep, contains_iff_mem, h.beq_eq hstep.node hgoal, seen]
    by_cases old : step'.1 ∈ f'.seen
    · rw [if_pos old, if_pos old]
      exact ih hf
    · rw [if_neg old, if_neg old]
      by_cases met : (step'.1 == goal') = true
      · rw [if_pos met, if_pos met]
        exact .error arrived
      · rw [if_neg met, if_neg met]
        exact ih ⟨.cons hstep.node hf.seen, arrived, rel_append hf.queue (.cons hstep.node .nil)⟩

/-- **Searches for matching goals end alike.** -/
theorem search (h : Matching s s' N P) {goal goal' : String} (hgoal : N goal goal')
    (rounds : Nat) {f f' : Frontier} (hf : FrontierMatched N P f f') :
    EndedAlike N P (s.search goal rounds f) (s'.search goal' rounds f') := by
  induction rounds generalizing f f' with
  | zero => exact .unfinished
  | succ rounds ih =>
    rw [Schema.search, Schema.search]
    have hqueue := hf.queue
    generalize f.queue = queue, f'.queue = queue' at hqueue
    cases hqueue with
    | nil => exact .exhausted
    | @cons node node' queue queue' hnode hqueue =>
      have popped : FrontierMatched N P { f with queue := queue } { f' with queue := queue' } :=
        ⟨hf.seen, hf.arrivals, hqueue⟩
      have tried := h.tryStep hgoal hnode (h.steps hnode) popped
      dsimp only
      generalize Schema.tryStep goal node (s.steps node) { f with queue := queue } = next,
        Schema.tryStep goal' node' (s'.steps node') { f' with queue := queue' } = next' at tried
      cases tried with
      | error has => exact .reached has
      | ok hnext => exact ih hnext

/-- **Walks back from matching nodes read matching chains.** -/
theorem walkBack (h : Matching s s' N P) {source source' node node' : String}
    (hsource : N source source') {as as' : List Arrival}
    (has : Forall₂ (ArrivalMatched N P) as as') (steps : Nat) (hnode : N node node')
    {chain chain' : List Relationship} (hchain : Forall₂ P chain chain') :
    Option.Rel (Forall₂ P) (Schema.walkBack source as steps node chain)
      (Schema.walkBack source' as' steps node' chain') := by
  have found : ∀ {node node'}, N node node' → Option.Rel (ArrivalMatched N P)
      (as.find? (·.node == node)) (as'.find? (·.node == node')) := by
    intro node node' hnode
    induction has with
    | nil => exact .none
    | cons ha _ ih =>
      rw [find?_cons, find?_cons, h.beq_eq ha.node hnode]
      split
      · exact .some ha
      · exact ih
  induction steps generalizing node node' chain chain' with
  | zero => exact .none
  | succ steps ih =>
    have arrival := found hnode
    simp only [Schema.walkBack, h.beq_eq hnode hsource]
    generalize as.find? (·.node == node) = arrived, as'.find? (·.node == node') = arrived'
      at arrival
    by_cases done : (node' == source') = true
    · rw [if_pos done, if_pos done]
      exact .some hchain
    · rw [if_neg done, if_neg done]
      cases arrival with
      | none => exact .some hchain
      | some ha => exact ih ha.parent (.cons ha.via hchain)

/-- **Matching chains are found between matching nodes.** -/
theorem shortestChain? (h : Matching s s' N P) (ha : N a a') (hb : N b b') :
    Option.Rel (Forall₂ P) (s.shortestChain? a b) (s'.shortestChain? a' b') := by
  have rounds : s.rounds = s'.rounds := by rw [Schema.rounds, Schema.rounds, h.length]
  have start : FrontierMatched N P (.start a) (.start a') :=
    ⟨.cons ha .nil, .nil, .cons ha .nil⟩
  have ended := h.search hb s.rounds start
  rw [Schema.shortestChain?, Schema.shortestChain?, ← rounds]
  generalize s.search b s.rounds (.start a) = outcome,
    s'.search b' s.rounds (.start a') = outcome' at ended
  cases ended with
  | reached has =>
    dsimp only
    rw [has.length_eq]
    exact h.walkBack ha has _ hb .nil
  | exhausted => exact .none
  | unfinished => exact .none

end Matching

/-! ## Schemas from lists -/

section Lists

variable {tables : List Table}

theorem foldl_addRelationship (s : Schema) (relationships : List Relationship) :
    relationships.foldl addRelationship s =
      { s with relationships := s.relationships ++ relationships } := by
  induction relationships generalizing s with
  | nil => simp
  | cons r relationships ih => simp [ih, addRelationship]

/-- Where names are apart, no table replaces another one or takes its alias. -/
theorem foldl_addTable (apart : NamesApart tables) :
    let s := tables.foldl addTable .empty
    s.tables = tables ∧ s.relationships = [] ∧
      ∀ t ∈ tables, s.aliases.lookup t.daxKey = some t.sqlKey := by
  induction tables using List.reverseRecOn with
  | nil => exact ⟨rfl, rfl, fun t ht => absurd ht not_mem_nil⟩
  | append_singleton tables t ih =>
    obtain ⟨before, -, others⟩ := pairwise_append.mp apart
    obtain ⟨same, none, owners⟩ := ih before
    have new : (tables.foldl addTable .empty).tableByKey? t.sqlKey = .none := by
      rw [tableByKey?, find?_eq_none, same]
      intro u hu own
      refine others u hu t (mem_singleton_self t) u.sqlKey (by simp [Table.keys]) ?_
      simp [Table.keys, eq_of_beq own]
    rw [foldl_concat]
    simp only [addTable, new, lookup_takeAlias, same, none, true_and]
    intro u hu
    by_cases own : u.daxKey = t.daxKey
    · rcases mem_append.mp hu with hu | hu
      · refine absurd ?_ (others u hu t (mem_singleton_self t) u.daxKey (by simp [Table.keys]))
        simp [Table.keys, own]
      · rw [if_pos own, mem_singleton.mp hu]
    · rcases mem_append.mp hu with hu | hu
      · rw [if_neg own, owners u hu]
      · rw [mem_singleton.mp hu] at own
        exact absurd rfl own

theorem tables_ofLists (apart : NamesApart tables) (relationships : List Relationship) :
    (ofLists tables relationships).tables = tables := by
  rw [ofLists, foldl_addRelationship]
  exact (foldl_addTable apart).1

theorem relationships_ofLists (apart : NamesApart tables) (relationships : List Relationship) :
    (ofLists tables relationships).relationships = relationships := by
  rw [ofLists, foldl_addRelationship, (foldl_addTable apart).2.1, nil_append]

theorem aliases_ofLists (tables : List Table) (relationships : List Relationship) :
    (ofLists tables relationships).aliases = (tables.foldl addTable .empty).aliases := by
  rw [ofLists, foldl_addRelationship]

theorem built_ofLists (tables : List Table) (relationships : List Relationship) :
    (ofLists tables relationships).Built := by
  have added : ∀ {s : Schema}, s.Built → (tables.foldl addTable s).Built := by
    intro s built
    induction tables generalizing s with
    | nil => exact built
    | cons t tables ih => exact ih (built.addTable t)
  have start := added .empty
  rw [ofLists]
  generalize tables.foldl addTable .empty = s at start
  induction relationships generalizing s with
  | nil => exact start
  | cons r relationships ih => exact ih _ (start.addRelationship r)

/-- **Where names are apart every table is found by both of its names.** -/
theorem wellNamed_ofLists (apart : NamesApart tables) (relationships : List Relationship) :
    (ofLists tables relationships).WellNamed := by
  have built := built_ofLists tables relationships
  have same := tables_ofLists apart relationships
  refine ⟨fun t ht => built.byName ht, ?_⟩
  intro t ht
  have own := tableByKey?_eq_some built.nodup_keys ht
  rw [same] at ht
  have owner := (foldl_addTable apart).2.2 t ht
  rw [← aliases_ofLists tables relationships, Table.daxKey] at owner
  rw [table?, owner, Option.bind_some, own]
  -- a table with this SQL name is the same one
  cases found : (ofLists tables relationships).tableByKey? (Text.upper t.effectiveName) with
  | none => rfl
  | some u =>
    have hu := mem_of_find?_eq_some found
    rw [same] at hu
    have key : u.sqlKey = Text.upper t.effectiveName := by simpa using find?_some found
    rw [apart.eq_of_key hu ht (k := u.sqlKey) (by simp [Table.keys])
      (by simp [Table.keys, Table.daxKey, key]), Option.some_or]

end Lists

/-! ## Names that stand for the same table -/

/-- Names that differ in the case of letters only, or that are names of one table. -/
def SameTable (tables : List Table) (x y : String) : Prop :=
  Text.upper x = Text.upper y ∨ ∃ t ∈ tables, Text.upper x ∈ t.keys ∧ Text.upper y ∈ t.keys

/-- **A relationship spelled in another way**: its tables are called by other names of theirs. -/
structure Respelled (tables : List Table) (r r' : Relationship) : Prop where
  fromTable : SameTable tables r.fromTable r'.fromTable
  toTable : SameTable tables r.toTable r'.toTable
  others : r' = { r with fromTable := r'.fromTable, toTable := r'.toTable }

/-- The names that active relationships use. -/
def usedNames (s : Schema) : List String :=
  s.activeRelationships.flatMap fun r => [r.fromTable, r.toTable]

/-- **Active relationships call the table by that name only**, in letters of any case. -/
def OnlyName (s : Schema) (x : String) : Prop :=
  ∀ y ∈ s.usedNames, s.tableKey y = s.tableKey x → Text.upper y = Text.upper x

/-- **A name in place of another**: they differ in the case of letters only, or each is the only one
of its table. -/
def KeepsNode (s s' : Schema) (x x' : String) : Prop :=
  Text.upper x = Text.upper x' ∨ (s.OnlyName x ∧ s'.OnlyName x')

/-- Both names of a relationship may be replaced by those of the other one. -/
def KeepsEnds (s s' : Schema) (r r' : Relationship) : Prop :=
  KeepsNode s s' r.fromTable r'.fromTable ∧ KeepsNode s s' r.toTable r'.toTable

instance (tables : List Table) (x y : String) : Decidable (SameTable tables x y) :=
  inferInstanceAs (Decidable (Text.upper x = Text.upper y ∨
    ∃ t ∈ tables, Text.upper x ∈ t.keys ∧ Text.upper y ∈ t.keys))

instance (s : Schema) (x : String) : Decidable (s.OnlyName x) :=
  inferInstanceAs (Decidable (∀ y ∈ s.usedNames,
    s.tableKey y = s.tableKey x → Text.upper y = Text.upper x))

instance (s s' : Schema) (x x' : String) : Decidable (KeepsNode s s' x x') :=
  inferInstanceAs (Decidable (Text.upper x = Text.upper x' ∨ (s.OnlyName x ∧ s'.OnlyName x')))

instance (s s' : Schema) (r r' : Relationship) : Decidable (KeepsEnds s s' r r') :=
  inferInstanceAs (Decidable
    (KeepsNode s s' r.fromTable r'.fromTable ∧ KeepsNode s s' r.toTable r'.toTable))

section Names

variable {s s' : Schema} {x y a b : String}

theorem isNode_iff : s.isNode a = true ↔ ∃ x ∈ s.usedNames, Text.upper x = a := by
  simp only [isNode, usedNames, any_eq_true, mem_flatMap, Bool.or_eq_true, beq_iff_eq,
    Relationship.fromKey, Relationship.toKey]
  constructor
  · rintro ⟨r, hr, own | own⟩
    · exact ⟨_, ⟨r, hr, by simp⟩, own⟩
    · exact ⟨_, ⟨r, hr, by simp⟩, own⟩
  · rintro ⟨x, ⟨r, hr, hx⟩, own⟩
    simp only [mem_cons, not_mem_nil, or_false] at hx
    rcases hx with rfl | rfl
    · exact ⟨r, hr, .inl own⟩
    · exact ⟨r, hr, .inr own⟩

theorem upper_of_isNode (h : s.isNode a = true) : Text.upper a = a := by
  obtain ⟨x, -, rfl⟩ := isNode_iff.mp h
  exact Text.upper_upper x

/-- The first of a list with each of two properties, when each has both. -/
theorem eq_of_find? {α : Type} {p q : α → Bool} {l : List α} {a b : α} (ha : l.find? p = some a)
    (hb : l.find? q = some b) (qa : q a = true) (pb : p b = true) : a = b := by
  induction l with
  | nil => cases ha
  | cons c l ih =>
    rw [find?_cons] at ha hb
    cases hp : p c with
    | true =>
      obtain rfl : c = a := by simpa [hp] using ha
      simpa [qa] using hb
    | false =>
      cases hq : q c with
      | true =>
        obtain rfl : c = b := by simpa [hq] using hb
        rw [hp] at pb
        cases pb
      | false => exact ih (by simpa [hp] using ha) (by simpa [hq] using hb)

/-- A table with one name has one node. -/
theorem OnlyName.eq_of_isNode (only : s.OnlyName x) (node : s.isNode a = true)
    (key : s.tableKey a = s.tableKey x) : a = Text.upper x := by
  obtain ⟨y, hy, rfl⟩ := isNode_iff.mp node
  rw [tableKey_upper] at key
  exact only y hy key

theorem OnlyName.upper (only : s.OnlyName x) : s.OnlyName (Text.upper x) := by
  intro y hy key
  rw [tableKey_upper] at key
  rw [Text.upper_upper]
  exact only y hy key

theorem KeepsNode.upper {x' : String} (h : KeepsNode s s' x x') :
    KeepsNode s s' (Text.upper x) (Text.upper x') := by
  rcases h with same | ⟨only, only'⟩
  · exact .inl (by rw [same])
  · exact .inr ⟨only.upper, only'.upper⟩

/-- A name with the key of a table is one of the names that the table may go by. -/
theorem WellNamed.upper_mem_names (named : s.WellNamed) (owned : s.Owned)
    (key : s.tableKey y = s.tableKey x) : Text.upper y ∈ (s.namesOf x).map Text.upper := by
  rw [namesOf]
  cases found : s.table? x with
  | some t =>
    rw [tableKey_of_table? found] at key
    have named := owned.key_of_table? (named.table?_eq_some (mem_of_table? found) key)
    simp only [Table.sqlKey, Table.daxKey] at named
    rcases named with same | same
    · simp [same]
    · simp [same]
  | none =>
    have free : s.table? y = none := by
      cases other : s.table? y with
      | none => rfl
      | some u =>
        rw [named.table?_eq_some (x := x) (mem_of_table? other)
          (key.symm.trans (tableKey_of_table? other))] at found
        cases found
    rw [tableKey_of_none found, tableKey_of_none free] at key
    simp [key]

theorem SameTable.tableKey_eq (named : s.WellNamed) (h : SameTable s.tables x y) :
    s.tableKey x = s.tableKey y := by
  have own : ∀ t ∈ s.tables, ∀ z, Text.upper z ∈ t.keys → s.tableKey z = t.sqlKey := by
    intro t ht z hz
    simp only [Table.keys, Table.sqlKey, Table.daxKey, mem_cons, not_mem_nil, or_false] at hz
    rcases hz with same | same
    · rw [tableKey_congr same, tableKey_of_table? (named.byName t ht)]
    · rw [tableKey_congr same, tableKey_of_table? (named.byAlias t ht)]
  rcases h with same | ⟨t, ht, hx, hy⟩
  · exact tableKey_congr same
  · rw [own t ht x hx, own t ht y hy]

end Names

/-! ## Schemas spelled in another way -/

/-- **A schema spelled in another way.** -/
structure Respelling (s s' : Schema) : Prop where
  tables : s'.tables = s.tables
  aliases : s'.aliases = s.aliases
  named : s.WellNamed
  owned : s.Owned
  ends : Forall₂ (fun r r' => Respelled s.tables r r' ∧ (r.isActive = true → KeepsEnds s s' r r'))
    s.relationships s'.relationships

/-- Nodes of one table, where one may be put in place of the other. -/
structure NodeMatched (s s' : Schema) (a a' : String) : Prop where
  left : s.isNode a = true
  right : s'.isNode a' = true
  key : s.tableKey a = s.tableKey a'
  keeps : KeepsNode s s' a a'

/-- Relationships at the same position of two lists. -/
def SamePlace (relationships relationships' : List Relationship) (r r' : Relationship) : Prop :=
  ∃ i : Nat, relationships[i]? = some r ∧ relationships'[i]? = some r'

/-- **Paths that are the same**: along the relationships at the same positions, or with the same
error. -/
inductive SamePath (relationships relationships' : List Relationship) :
    Except PathError (List Relationship) → Except PathError (List Relationship) → Prop
  | ok {p p' : List Relationship} (h : Forall₂ (SamePlace relationships relationships') p p') :
      SamePath relationships relationships' (.ok p) (.ok p')
  | error (e : PathError) : SamePath relationships relationships' (.error e) (.error e)

namespace Respelling

variable {s s' : Schema} {x : String}

theorem table?_eq (h : Respelling s s') (x : String) : s'.table? x = s.table? x := by
  have keyed : s'.tableByKey? = s.tableByKey? := by
    funext key
    rw [tableByKey?, tableByKey?, h.tables]
  rw [table?, table?, keyed, h.aliases]

theorem tableKey_eq (h : Respelling s s') (x : String) : s'.tableKey x = s.tableKey x := by
  rw [tableKey, tableKey, sqlTableName?, sqlTableName?, h.table?_eq]

theorem namesOf_eq (h : Respelling s s') (x : String) : s'.namesOf x = s.namesOf x := by
  rw [namesOf, namesOf, h.table?_eq]

theorem missingNode_eq (h : Respelling s s') (table source target : String) :
    s'.missingNode table source target = s.missingNode table source target := by
  rw [missingNode, missingNode, h.table?_eq]

/-- Ends that are spelled in another way are matching nodes. -/
theorem nodeMatched (h : Respelling s s') {x x' : String} (hx : x ∈ s.usedNames)
    (hx' : x' ∈ s'.usedNames) (same : SameTable s.tables x x') (keeps : KeepsNode s s' x x') :
    NodeMatched s s' (Text.upper x) (Text.upper x') where
  left := isNode_iff.mpr ⟨x, hx, rfl⟩
  right := isNode_iff.mpr ⟨x', hx', rfl⟩
  key := by
    rw [tableKey_upper, tableKey_upper]
    exact same.tableKey_eq h.named
  keeps := keeps.upper

/-- **Active relationships match**, each at its position. -/
theorem active (h : Respelling s s') :
    Forall₂ (EndsMatched (NodeMatched s s') (SamePlace s.relationships s'.relationships))
      s.activeRelationships s'.activeRelationships := by
  obtain ⟨length, ends⟩ := forall₂_iff_get.mp h.ends
  have placed : Forall₂ (fun r r' => r'.isActive = r.isActive ∧ (r.isActive = true →
      EndsMatched (NodeMatched s s') (SamePlace s.relationships s'.relationships) r r'))
      s.relationships s'.relationships := by
    refine forall₂_iff_get.mpr ⟨length, ?_⟩
    intro i hi hi'
    obtain ⟨spelled, keeps⟩ := ends i hi hi'
    have alike : (s'.relationships.get ⟨i, hi'⟩).isActive =
        (s.relationships.get ⟨i, hi⟩).isActive := by rw [spelled.others]
    refine ⟨alike, fun on => ?_⟩
    obtain ⟨keepsFrom, keepsTo⟩ := keeps on
    have used : s.relationships.get ⟨i, hi⟩ ∈ s.activeRelationships :=
      mem_filter.mpr ⟨get_mem _ _, on⟩
    have used' : s'.relationships.get ⟨i, hi'⟩ ∈ s'.activeRelationships :=
      mem_filter.mpr ⟨get_mem _ _, alike.trans on⟩
    refine ⟨⟨i, by simp [hi], by simp [hi']⟩, ?_, ?_⟩
    · exact h.nodeMatched (mem_flatMap.mpr ⟨_, used, by simp⟩) (mem_flatMap.mpr ⟨_, used', by simp⟩)
        spelled.fromTable keepsFrom
    · exact h.nodeMatched (mem_flatMap.mpr ⟨_, used, by simp⟩) (mem_flatMap.mpr ⟨_, used', by simp⟩)
        spelled.toTable keepsTo
  have kept := rel_filter (p := (·.isActive)) (q := (·.isActive))
    (fun r r' h => by simp only [h.1]) placed
  have on : ∀ r ∈ s.activeRelationships, r.isActive = true := fun r hr => (mem_filter.mp hr).2
  exact ((forall₂_and_left _ _).mpr ⟨on, kept⟩).imp fun r r' both => both.2.2 both.1

/-- **Nodes match one to one.** -/
theorem unique (h : Respelling s s') : Relator.BiUnique (NodeMatched s s') := by
  constructor
  · intro a b c ha hb
    have key := ha.key.trans hb.key.symm
    rcases ha.keeps with same | ⟨only, -⟩
    · rcases hb.keeps with same' | ⟨only, -⟩
      · rw [← upper_of_isNode ha.left, ← upper_of_isNode hb.left, same, same']
      · rw [only.eq_of_isNode ha.left key, upper_of_isNode hb.left]
    · rw [only.eq_of_isNode hb.left key.symm, upper_of_isNode ha.left]
  · intro a b c hb hc
    have key : s'.tableKey b = s'.tableKey c := by
      rw [h.tableKey_eq, h.tableKey_eq]
      exact hb.key.symm.trans hc.key
    rcases hb.keeps with same | ⟨-, only⟩
    · rcases hc.keeps with same' | ⟨-, only⟩
      · rw [← upper_of_isNode hb.right, ← upper_of_isNode hc.right, ← same, ← same']
      · rw [only.eq_of_isNode hb.right key, upper_of_isNode hc.right]
    · rw [only.eq_of_isNode hc.right key.symm, upper_of_isNode hb.right]

/-- Each node matches one of the other schema. -/
theorem exists_nodeMatched (h : Respelling s s') :
    (∀ a, s.isNode a = true → ∃ a', NodeMatched s s' a a') ∧
      ∀ a', s'.isNode a' = true → ∃ a, NodeMatched s s' a a' := by
  obtain ⟨length, ends⟩ := forall₂_iff_get.mp h.active
  constructor
  · intro a node
    simp only [isNode, any_eq_true, Bool.or_eq_true, beq_iff_eq] at node
    obtain ⟨r, hr, own⟩ := node
    obtain ⟨⟨i, hi⟩, rfl⟩ := mem_iff_get.mp hr
    have matched := ends i hi (length ▸ hi)
    rcases own with rfl | rfl
    · exact ⟨_, matched.fromKey⟩
    · exact ⟨_, matched.toKey⟩
  · intro a' node
    simp only [isNode, any_eq_true, Bool.or_eq_true, beq_iff_eq] at node
    obtain ⟨r, hr, own⟩ := node
    obtain ⟨⟨i, hi⟩, rfl⟩ := mem_iff_get.mp hr
    have matched := ends i (length ▸ hi) hi
    rcases own with rfl | rfl
    · exact ⟨_, matched.fromKey⟩
    · exact ⟨_, matched.toKey⟩

/-- **The nodes of a table match.** -/
theorem node? (h : Respelling s s') (x : String) :
    Option.Rel (NodeMatched s s') (s.node? x) (s'.node? x) := by
  obtain ⟨toRight, toLeft⟩ := h.exists_nodeMatched
  have known : ∀ {a}, Text.upper a = a → s.tableKey a = s.tableKey x →
      a ∈ (s.namesOf x).map Text.upper := by
    intro a capital key
    rw [← capital]
    exact h.named.upper_mem_names h.owned key
  have keyed : ∀ {a}, a ∈ (s.namesOf x).map Text.upper → s.tableKey a = s.tableKey x := by
    intro a ha
    obtain ⟨n, hn, rfl⟩ := mem_map.mp ha
    rw [tableKey_upper, h.named.tableKey_of_mem hn]
  rw [Schema.node?, Schema.node?, h.namesOf_eq]
  generalize (s.namesOf x).map Text.upper = names at known keyed
  cases left : names.find? s.isNode with
  | none =>
    cases right : names.find? s'.isNode with
    | none => exact .none
    | some b =>
      obtain ⟨a, matched⟩ := toLeft b (find?_some right)
      have key := matched.key.trans (keyed (mem_of_find?_eq_some right))
      exact absurd matched.left
        (find?_eq_none.mp left a (known (upper_of_isNode matched.left) key))
  | some a =>
    have keyA := keyed (mem_of_find?_eq_some left)
    obtain ⟨a', matchedA⟩ := toRight a (find?_some left)
    have key := matchedA.key.symm.trans keyA
    cases right : names.find? s'.isNode with
    | none =>
      exact absurd matchedA.right
        (find?_eq_none.mp right a' (known (upper_of_isNode matchedA.right) key))
    | some b =>
      refine .some ?_
      have keyB := keyed (mem_of_find?_eq_some right)
      obtain ⟨b', matchedB⟩ := toLeft b (find?_some right)
      rcases matchedA.keeps with same | ⟨-, only⟩
      · rcases matchedB.keeps with same' | ⟨only, -⟩
        · -- both names are nodes of both schemas, and the first one is taken
          rw [upper_of_isNode matchedA.left, upper_of_isNode matchedA.right] at same
          rw [upper_of_isNode matchedB.left, upper_of_isNode matchedB.right] at same'
          have one : a = b := eq_of_find? left right (same ▸ matchedA.right) (same' ▸ matchedB.left)
          rw [← same] at matchedA
          rw [← one]
          exact matchedA
        · rw [only.eq_of_isNode matchedA.left (keyA.trans (keyB.symm.trans matchedB.key.symm)),
            upper_of_isNode matchedB.left]
          exact matchedB
      · have own : b = a' := by
          rw [only.eq_of_isNode (find?_some right), upper_of_isNode matchedA.right]
          rw [h.tableKey_eq, h.tableKey_eq, keyB, key]
        rw [own]
        exact matchedA

/-- **The same paths are found**, between any two tables. -/
theorem joinPath (h : Respelling s s') (x y : String) :
    SamePath s.relationships s'.relationships (s.joinPath x y) (s'.joinPath x y) := by
  have matching : Matching s s' (NodeMatched s s') (SamePlace s.relationships s'.relationships) :=
    ⟨h.unique, h.active, h.ends.length_eq⟩
  have source := h.node? x
  have target := h.node? y
  rw [Schema.joinPath, Schema.joinPath, h.tableKey_eq, h.tableKey_eq, h.missingNode_eq,
    h.missingNode_eq]
  generalize s.node? x = a, s'.node? x = a' at source
  generalize s.node? y = b, s'.node? y = b' at target
  by_cases same : (s.tableKey x == s.tableKey y) = true
  · rw [if_pos same, if_pos same]
    exact .ok .nil
  · rw [if_neg same, if_neg same]
    cases source with
    | none => exact .error _
    | some hsource =>
      cases target with
      | none => exact .error _
      | some htarget =>
        have chain := matching.shortestChain? hsource htarget
        dsimp only
        generalize s.shortestChain? _ _ = p, s'.shortestChain? _ _ = p' at chain
        cases chain with
        | none => exact .error _
        | some hp => exact .ok hp

end Respelling

/-- **Paths do not depend on the spelling of names**, as long as each table keeps its nodes.  Where
the names of tables are apart, let relationships call the same tables by other names: in letters of
another case, or by the other one of a table's two names if they all do so.  Then between any two
tables there is a path along the relationships at the same positions, or the same error. -/
theorem joinPath_respelled {tables : List Table} (apart : NamesApart tables)
    {relationships relationships' : List Relationship}
    (spelled : Forall₂ (Respelled tables) relationships relationships')
    (keeps : Forall₂ (fun r r' => r.isActive = true →
      KeepsEnds (ofLists tables relationships) (ofLists tables relationships') r r')
      relationships relationships') (x y : String) :
    SamePath relationships relationships' ((ofLists tables relationships).joinPath x y)
      ((ofLists tables relationships').joinPath x y) := by
  have respelling : Respelling (ofLists tables relationships) (ofLists tables relationships') := by
    refine ⟨?_, ?_, wellNamed_ofLists apart _, (built_ofLists tables _).owned, ?_⟩
    · rw [tables_ofLists apart, tables_ofLists apart]
    · rw [aliases_ofLists, aliases_ofLists]
    · rw [tables_ofLists apart, relationships_ofLists apart, relationships_ofLists apart]
      exact Forall₂.mp (fun _ _ => And.intro) spelled keeps
  have same := respelling.joinPath x y
  rwa [relationships_ofLists apart, relationships_ofLists apart] at same

/-- A relationship that calls its second table by the name in expressions. -/
def callByAlias (s : Schema) (r : Relationship) : Relationship :=
  { r with toTable := (s.daxTableName? r.toTable).getD r.toTable }

theorem respelled_callByAlias {tables : List Table} {s : Schema} {r : Relationship}
    (same : SameTable tables r.toTable (callByAlias s r).toTable) :
    Respelled tables r (callByAlias s r) :=
  ⟨.inl rfl, same, rfl⟩

/-- The relationships of the retail schema may all use the names in expressions. -/
theorem joinPath_respelled_retail :
    let spelled := retail.relationships.map (callByAlias retail)
    spelled.map (·.toTable) = ["Date", "Product", "Store", "Customer"] ∧
      NamesApart retail.tables ∧ Forall₂ (Respelled retail.tables) retail.relationships spelled ∧
      SamePath retail.relationships spelled
        ((ofLists retail.tables retail.relationships).joinPath "dim_date" "Store")
        ((ofLists retail.tables spelled).joinPath "dim_date" "Store") := by
  have apart : NamesApart retail.tables := by decide +kernel
  have same : ∀ r ∈ retail.relationships,
      SameTable retail.tables r.toTable (callByAlias retail r).toTable := by decide +kernel
  have keeps : ∀ r ∈ retail.relationships, KeepsEnds (ofLists retail.tables retail.relationships)
      (ofLists retail.tables (retail.relationships.map (callByAlias retail))) r
      (callByAlias retail r) := by decide +kernel
  have respelled : Forall₂ (Respelled retail.tables) retail.relationships
      (retail.relationships.map (callByAlias retail)) :=
    forall₂_map_right_iff.mpr (forall₂_same.mpr fun r hr => respelled_callByAlias (same r hr))
  refine ⟨by decide +kernel, apart, respelled, joinPath_respelled apart respelled ?_ _ _⟩
  exact forall₂_map_right_iff.mpr (forall₂_same.mpr fun r hr _ => keeps r hr)

-- one relationship calls the days by the SQL name and the other by the name in expressions, so that
-- no path leads over them
example :
    (ofLists retail.tables
      [⟨"sales", "date_key", "dim_date", "date_key", .manyToOne, .single, true⟩,
        ⟨"Date", "store_key", "dim_store", "store_key", .manyToOne, .single, true⟩]).hasPath
      "sales" "dim_store" = false := by decide +kernel

end Schema

end MeasureSql
