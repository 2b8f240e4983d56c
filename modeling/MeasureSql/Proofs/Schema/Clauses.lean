import MeasureSql.Proofs.Schema.Joins

/-!
# What clauses are made of

A search arrives nowhere but along a relationship of the schema, so every path that is found is made
of relationships, and so is every `JOIN` clause: it joins one of the two tables of a relationship on
the columns of the relationship.

## Main results

* `Schema.mem_relationships_of_joinPath` — paths are made of relationships.
* `Schema.exists_relationship_of_joinClauses` — clauses are made of relationships.
-/

namespace MeasureSql.Schema

variable {s : Schema}

/-- All that was reached was reached along relationships. -/
def Along (s : Schema) (arrivals : List Arrival) : Prop :=
  ∀ a ∈ arrivals, a.via ∈ s.relationships

theorem mem_relationships_of_mem_steps {node : String} {step : String × Relationship}
    (h : step ∈ s.steps node) : step.2 ∈ s.relationships := by
  have active {r : Relationship} {p : Relationship → Bool}
      (hr : r ∈ (s.activeRelationships.filter p).reverse) : r ∈ s.relationships :=
    (List.mem_filter.mp (List.mem_filter.mp (List.mem_reverse.mp hr)).1).1
  rcases List.mem_append.mp h with h | h
  · obtain ⟨r, hr, rfl⟩ := List.mem_map.mp h
    exact active hr
  · obtain ⟨r, hr, rfl⟩ := List.mem_map.mp h
    exact active hr

/-- Trying steps arrives along the relationships of the steps. -/
theorem along_of_tryStep (goal current : String) {steps : List (String × Relationship)}
    {f : Frontier} (hf : Along s f.arrivals) (hsteps : ∀ step ∈ steps, step.2 ∈ s.relationships) :
    (∀ f', tryStep goal current steps f = .ok f' → Along s f'.arrivals) ∧
      ∀ arrivals, tryStep goal current steps f = .error arrivals → Along s arrivals := by
  induction steps generalizing f with
  | nil =>
    refine ⟨fun f' run => ?_, by rintro _ ⟨⟩⟩
    obtain rfl := Except.ok.inj run
    exact hf
  | cons step steps ih =>
    obtain ⟨node, r⟩ := step
    obtain ⟨hr, hsteps⟩ := List.forall_mem_cons.mp hsteps
    have grown : Along s (⟨node, current, r⟩ :: f.arrivals) := List.forall_mem_cons.mpr ⟨hr, hf⟩
    unfold tryStep
    split
    · exact ih hf hsteps
    · dsimp only
      split
      · refine ⟨by rintro _ ⟨⟩, fun arrivals run => ?_⟩
        obtain rfl := Except.error.inj run
        exact grown
      · exact ih (f := ⟨node :: f.seen, _, f.queue ++ [node]⟩) grown hsteps

theorem along_of_search {goal : String} {rounds : Nat} {f : Frontier} {arrivals : List Arrival}
    (hf : Along s f.arrivals) (h : s.search goal rounds f = .reached arrivals) :
    Along s arrivals := by
  induction rounds generalizing f with
  | zero => cases h
  | succ rounds ih =>
    unfold search at h
    split at h
    · cases h
    · next node queue hqueue =>
      have steps : ∀ step ∈ s.steps node, step.2 ∈ s.relationships := fun step =>
        mem_relationships_of_mem_steps
      have tried := along_of_tryStep goal node (f := { f with queue := queue }) hf steps
      split at h
      · next found result =>
        cases h
        exact tried.2 _ result
      · next next result => exact ih (tried.1 _ result) h

theorem mem_relationships_of_walkBack {source : String} {arrivals : List Arrival} {steps : Nat}
    {node : String} {chain path : List Relationship} (ha : Along s arrivals)
    (hchain : ∀ r ∈ chain, r ∈ s.relationships)
    (h : walkBack source arrivals steps node chain = some path) :
    ∀ r ∈ path, r ∈ s.relationships := by
  induction steps generalizing node chain with
  | zero => cases h
  | succ steps ih =>
    unfold walkBack at h
    split at h
    · exact Option.some.inj h ▸ hchain
    · split at h
      · exact Option.some.inj h ▸ hchain
      · next a found =>
        exact ih (List.forall_mem_cons.mpr ⟨ha a (List.mem_of_find?_eq_some found), hchain⟩) h

/-- **Paths are made of relationships.** -/
theorem mem_relationships_of_joinPath {source target : String} {path : List Relationship}
    (h : s.joinPath source target = .ok path) : ∀ r ∈ path, r ∈ s.relationships := by
  unfold joinPath at h
  split at h
  · obtain rfl := Except.ok.inj h
    simp
  · split at h
    · cases h
    · split at h
      · cases h
      · split at h
        · next chain found =>
          obtain rfl := Except.ok.inj h
          unfold shortestChain? at found
          split at found
          · next arrivals reached =>
            have along := along_of_search (by simp [Along, Frontier.start]) reached
            exact mem_relationships_of_walkBack along (by simp) found
          · cases found
        · cases h

/-- The clauses join tables of relationships. -/
def MadeOfRelationships (s : Schema) (clauses : List String) : Prop :=
  ∀ c ∈ clauses, ∃ r ∈ s.relationships, ∃ table, (table = r.fromTable ∨ table = r.toTable) ∧
    c = s.clauseFor table r

theorem madeOfRelationships_joinAlong {j : Joined} {r : Relationship} (hr : r ∈ s.relationships)
    (h : s.MadeOfRelationships j.clauses) : s.MadeOfRelationships (s.joinAlong j r).clauses := by
  have ends := (ite_eq_or_eq (j.keys.contains (s.tableKey r.fromTable)) r.toTable r.fromTable).symm
  unfold joinAlong
  generalize (if j.keys.contains (s.tableKey r.fromTable) then r.toTable else r.fromTable) = table
    at ends
  dsimp only
  split
  · exact h
  · intro c hc
    rcases List.mem_append.mp hc with hc | hc
    · exact h c hc
    · exact ⟨r, hr, table, ends, List.mem_singleton.mp hc⟩

theorem madeOfRelationships_foldl {j : Joined} {path : List Relationship}
    (hpath : ∀ r ∈ path, r ∈ s.relationships) (h : s.MadeOfRelationships j.clauses) :
    s.MadeOfRelationships (path.foldl s.joinAlong j).clauses := by
  induction path generalizing j with
  | nil => exact h
  | cons r path ih =>
    obtain ⟨hr, hpath⟩ := List.forall_mem_cons.mp hpath
    exact ih hpath (madeOfRelationships_joinAlong hr h)

theorem madeOfRelationships_joinTables {base : String} {tables : List String} {j j' : Joined}
    (h : s.MadeOfRelationships j.clauses) (run : s.joinTables base tables j = .ok j') :
    s.MadeOfRelationships j'.clauses := by
  induction tables generalizing j with
  | nil => exact Except.ok.inj run ▸ h
  | cons table tables ih =>
    rw [joinTables] at run
    split at run
    · exact ih h run
    · split at run
      · cases run
      · next path shortest =>
        obtain ⟨n, -, found⟩ := List.mem_filterMap.mp (firstShortest?_mem shortest)
        have hpath : s.joinPath n table = .ok path := by
          cases result : s.joinPath n table with
          | error e => simp [result, Except.toOption] at found
          | ok p => simpa [result, Except.toOption] using found
        exact ih (madeOfRelationships_foldl (mem_relationships_of_joinPath hpath) h) run

/-- **Clauses are made of relationships.** -/
theorem exists_relationship_of_joinClauses {tables clauses : List String}
    (h : s.joinClauses tables = .ok clauses) : s.MadeOfRelationships clauses := by
  cases tables with
  | nil =>
    obtain rfl := Except.ok.inj h
    simp [MadeOfRelationships]
  | cons base rest =>
    rw [joinClauses] at h
    cases run : s.joinTables base rest ⟨[s.tableKey base], [base], []⟩ with
    | error e => simp [run, Except.map] at h
    | ok j =>
      obtain rfl : j.clauses = clauses := by simpa [run, Except.map] using h
      exact madeOfRelationships_joinTables (by simp [MadeOfRelationships]) run

end MeasureSql.Schema
