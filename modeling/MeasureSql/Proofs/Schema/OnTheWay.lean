import MeasureSql.Proofs.Schema.JoinPlan

/-!
# Tables on the way

Two tables that are not next to each other are joined through those between them.  So a join speaks
of more tables than it was asked to join, and which ones depends on the relationships.  In any
schema, each table that is joined is one of the list or stands on a shortest path to one.

## Main definitions

* `Schema.OnTheWay` — a table that is joined to reach another one.

## Main results

* `Schema.exists_plan_of_joinClauses` — which tables the clauses join.
-/

namespace MeasureSql.Schema

variable {s : Schema} {j : Joined}

/-- **A table on the way**: it is none of those that are to be joined, and is the end of a
relationship on the shortest path from a table that is joined to one of them. -/
structure OnTheWay (s : Schema) (tables joined : List String) (step : String × Relationship) :
    Prop where
  unlisted : s.tableKey step.1 ∉ tables.map s.tableKey
  isEnd : step.1 = step.2.fromTable ∨ step.1 = step.2.toTable
  path : ∃ start ∈ joined, ∃ target ∈ tables, ∃ path,
    s.joinPath start target = .ok path ∧ step.2 ∈ path

/-- A relationship adds one of its ends, or nothing. -/
theorem exists_with_of_joinAlong (j : Joined) (r : Relationship) :
    ∃ plan, s.joinAlong j r = j.with s plan ∧
      ∀ step ∈ plan, (step.1 = r.fromTable ∨ step.1 = r.toTable) ∧ step.2 = r := by
  have isEnd := (ite_eq_or_eq (j.keys.contains (s.tableKey r.fromTable)) r.toTable r.fromTable).symm
  unfold joinAlong
  generalize (if j.keys.contains (s.tableKey r.fromTable) then r.toTable else r.fromTable) = table
    at isEnd
  dsimp only
  split
  · exact ⟨[], (Joined.with_nil j).symm, by simp⟩
  · exact ⟨[(table, r)], rfl, List.forall_mem_singleton.mpr ⟨isEnd, rfl⟩⟩

/-- A path adds ends of its relationships. -/
theorem exists_with_of_foldl (j : Joined) (path : List Relationship) :
    ∃ plan, path.foldl s.joinAlong j = j.with s plan ∧
      ∀ step ∈ plan, (step.1 = step.2.fromTable ∨ step.1 = step.2.toTable) ∧ step.2 ∈ path := by
  induction path generalizing j with
  | nil => exact ⟨[], (Joined.with_nil j).symm, by simp⟩
  | cons r path ih =>
    obtain ⟨first, hfirst, ends⟩ := exists_with_of_joinAlong (s := s) j r
    obtain ⟨later, hlater, ends'⟩ := ih (j.with s first)
    refine ⟨first ++ later, ?_,
      List.forall_mem_append.mpr ⟨fun step hstep => ?_, fun step hstep => ?_⟩⟩
    · rw [List.foldl_cons, hfirst, hlater, Joined.with_append]
    · obtain ⟨isEnd, rfl⟩ := ends step hstep
      exact ⟨isEnd, List.mem_cons_self⟩
    · exact ⟨(ends' step hstep).1, List.mem_cons_of_mem r (ends' step hstep).2⟩

/-- A list of tables adds ends of relationships on paths to them. -/
theorem exists_with_of_joinTables {base : String} {tables : List String} {j j' : Joined}
    (run : s.joinTables base tables j = .ok j') :
    ∃ plan, j' = j.with s plan ∧ ∀ step ∈ plan,
      (step.1 = step.2.fromTable ∨ step.1 = step.2.toTable) ∧
      ∃ start ∈ j'.names, ∃ target ∈ tables, ∃ path,
        s.joinPath start target = .ok path ∧ step.2 ∈ path := by
  induction tables generalizing j with
  | nil =>
    obtain rfl := Except.ok.inj run
    exact ⟨[], (Joined.with_nil j).symm, by simp⟩
  | cons table tables ih =>
    -- what holds of the paths to the other tables
    have further : (∀ plan : List (String × Relationship), ∀ step ∈ plan,
        (∃ start ∈ j'.names, ∃ target ∈ tables, ∃ path,
          s.joinPath start target = .ok path ∧ step.2 ∈ path) →
        ∃ start ∈ j'.names, ∃ target ∈ table :: tables, ∃ path,
          s.joinPath start target = .ok path ∧ step.2 ∈ path) := by
      rintro plan step - ⟨start, hstart, target, htarget, found⟩
      exact ⟨start, hstart, target, List.mem_cons_of_mem table htarget, found⟩
    rw [joinTables] at run
    split at run
    · obtain ⟨plan, hplan, ends⟩ := ih run
      exact ⟨plan, hplan, fun step hstep =>
        ⟨(ends step hstep).1, further plan step hstep (ends step hstep).2⟩⟩
    · split at run
      · cases run
      · next path shortest =>
        obtain ⟨⟨start, hstart, hpath⟩, -⟩ := shortest_spec shortest
        obtain ⟨first, hfirst, ends⟩ := exists_with_of_foldl (s := s) j path
        rw [hfirst] at run
        obtain ⟨later, rfl, ends'⟩ := ih run
        have begun : start ∈ ((j.with s first).with s later).names := by
          simp [Joined.with, hstart]
        refine ⟨first ++ later, Joined.with_append j first later,
          List.forall_mem_append.mpr ⟨fun step hstep => ?_, fun step hstep => ?_⟩⟩
        · exact ⟨(ends step hstep).1, start, begun, table, List.mem_cons_self, path, hpath,
            (ends step hstep).2⟩
        · exact ⟨(ends' step hstep).1, further later step hstep (ends' step hstep).2⟩

/-- **Which tables the clauses join**: tables of the list, and tables on the way to them. -/
theorem exists_plan_of_joinClauses {base : String} {tables clauses : List String}
    (run : s.joinClauses (base :: tables) = .ok clauses) :
    ∃ plan : List (String × Relationship),
      clauses = plan.map (fun step => s.clauseFor step.1 step.2) ∧
      ∀ step ∈ plan, s.tableKey step.1 ∈ (base :: tables).map s.tableKey ∨
        s.OnTheWay (base :: tables) (base :: plan.map (·.1)) step := by
  rw [joinClauses] at run
  cases result : s.joinTables base tables ⟨[s.tableKey base], [base], []⟩ with
  | error e => simp [result, Except.map] at run
  | ok j =>
    obtain rfl : j.clauses = clauses := by simpa [result, Except.map] using run
    obtain ⟨plan, rfl, ends⟩ := exists_with_of_joinTables result
    refine ⟨plan, by simp [Joined.with], fun step hstep => ?_⟩
    by_cases listed : s.tableKey step.1 ∈ (base :: tables).map s.tableKey
    · exact .inl listed
    · obtain ⟨isEnd, start, hstart, target, htarget, path⟩ := ends step hstep
      exact .inr ⟨listed, isEnd, start, hstart, target, List.mem_cons_of_mem base htarget, path⟩

end MeasureSql.Schema
