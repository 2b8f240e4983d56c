import MeasureSql.Proofs.Render.Frame

/-!
# Computations in step

Rendering reads two things of its state, the filters in force and the rows; everything else in the
state is only written.  Two computations are in step when, from states with the same filters and
rows, they give the same value or fail with the same error, leave the same filters and rows, and
have recorded the same tables in the innermost query, whatever that query had read before.  The
tables are part of it because a query reads them back to write its `FROM` clause.

## Main definitions

* `SameContext` — states with the same filters and rows.
* `InStep` — computations that do the same from such states.

## Main results

* `InStep.bind`, `InStep.withScope` — sequences, and queries of their own.
* `inStep_resolveColumn`, `inStep_applyPattern`, … — the steps that render no part.
-/

namespace MeasureSql.Rendering

open Dax

/-! ## Tables recorded one after the other -/

@[simp] theorem readAlso_nil (scopes : List (List String)) : readAlso [] scopes = scopes := by
  cases scopes <;> rfl

theorem readAlso_readAlso (xs ys : List String) (scopes : List (List String)) :
    readAlso ys (readAlso xs scopes) = readAlso (xs ++ ys) scopes := by
  cases scopes with
  | nil => rfl
  | cons scope outer => simp [readAlso]

/-! ## The relation -/

/-- The states have the same filters and the same rows. -/
structure SameContext (s s' : RenderState) : Prop where
  filters : s.filters = s'.filters
  rows : s.rowTables = s'.rowTables

theorem SameContext.refl (s : RenderState) : SameContext s s :=
  ⟨rfl, rfl⟩

/-- **The computations go in step**: from states with the same context both give the same value, and
then have the same context again and have recorded the same tables, or both fail with the same
error. -/
def InStep {α : Type} (m m' : Rendering α) : Prop :=
  ∀ s s', SameContext s s' →
    (∃ a u u' tables, m s = (.ok a, u) ∧ m' s' = (.ok a, u') ∧ SameContext u u' ∧
      u.scopes = readAlso tables s.scopes ∧ u'.scopes = readAlso tables s'.scopes) ∨
    ∃ err u u', m s = (.error err, u) ∧ m' s' = (.error err, u')

section Rules

variable {α β : Type}

namespace InStep

/-- The value or the error is the same. -/
theorem result_eq {m m' : Rendering α} (h : InStep m m') {s s' : RenderState}
    (hs : SameContext s s') : (m s).1 = (m' s').1 := by
  obtain ⟨a, u, u', tables, hm, hm', -⟩ | ⟨err, u, u', hm, hm'⟩ := h s s' hs
  · rw [hm, hm']
  · rw [hm, hm']

theorem pure (a : α) : InStep (Pure.pure a : Rendering α) (Pure.pure a) :=
  fun s s' hs => .inl ⟨a, s, s', [], rfl, rfl, hs, by simp, by simp⟩

theorem fail (err : TemplateError) : InStep (throw err : Rendering α) (throw err) :=
  fun s s' _ => .inr ⟨err, s, s', rfl, rfl⟩

/-- **One computation after another**: the tables add up. -/
theorem bind {m m' : Rendering α} {f f' : α → Rendering β} (hm : InStep m m')
    (hf : ∀ a, InStep (f a) (f' a)) : InStep (m >>= f) (m' >>= f') := by
  intro s s' hs
  rw [run_bind, run_bind]
  obtain ⟨a, u, u', xs, hrun, hrun', hu, hscopes, hscopes'⟩ | ⟨err, u, u', hrun, hrun'⟩ :=
    hm s s' hs
  · rw [hrun, hrun']
    dsimp only
    obtain ⟨b, v, v', ys, hrest, hrest', hv, hmore, hmore'⟩ | herror := hf a u u' hu
    · refine .inl ⟨b, v, v', xs ++ ys, hrest, hrest', hv, ?_, ?_⟩
      · rw [hmore, hscopes, readAlso_readAlso]
      · rw [hmore', hscopes', readAlso_readAlso]
    · exact .inr herror
  · rw [hrun, hrun']
    exact .inr ⟨err, u, u', rfl, rfl⟩

theorem ite {c : Prop} [Decidable c] {m m' n n' : Rendering α} (hm : InStep m m')
    (hn : InStep n n') : InStep (if c then m else n) (if c then m' else n') := by
  split
  · exact hm
  · exact hn

/-- A change of what is only written. -/
theorem step {g : RenderState → RenderState} (h : ∀ s, (g s).filters = s.filters ∧
    (g s).rowTables = s.rowTables ∧ (g s).scopes = s.scopes) :
    InStep (modify g : Rendering Unit) (modify g) := by
  intro s s' hs
  obtain ⟨hfilters, hrows, hscopes⟩ := h s
  obtain ⟨hfilters', hrows', hscopes'⟩ := h s'
  refine .inl ⟨(), g s, g s', [], rfl, rfl, ⟨?_, ?_⟩, by simpa using hscopes,
    by simpa using hscopes'⟩
  · rw [hfilters, hfilters', hs.filters]
  · rw [hrows, hrows', hs.rows]

/-- What is read of the state is its context. -/
theorem get {f f' : RenderState → Rendering α}
    (h : ∀ s s', SameContext s s' → InStep (f s) (f' s')) :
    InStep (get >>= f) (get >>= f') := by
  intro s s' hs
  rw [run_bind, run_bind]
  exact h s s' hs s s' hs

theorem changeFilters (f : FilterContext → FilterContext) :
    InStep (Rendering.changeFilters f) (Rendering.changeFilters f) :=
  fun s s' hs => .inl ⟨(), _, _, [], rfl, rfl, ⟨congrArg f hs.filters, hs.rows⟩,
    (readAlso_nil s.scopes).symm, (readAlso_nil s'.scopes).symm⟩

/-- What becomes of the states after an error does not matter. -/
theorem endsLike {m m' n n' : Rendering α} (h : InStep m m') (hn : EndsLike n m)
    (hn' : EndsLike n' m') : InStep n n' := by
  intro s s' hs
  obtain ⟨a, u, u', tables, hm, hm', hsame⟩ | ⟨err, u, u', hm, hm'⟩ := h s s' hs
  · exact .inl ⟨a, u, u', tables, hn.of_ok hm, hn'.of_ok hm', hsame⟩
  · obtain ⟨v, hv⟩ := hn.of_error hm
    obtain ⟨v', hv'⟩ := hn'.of_error hm'
    exact .inr ⟨err, v, v', hv, hv'⟩

theorem withRow (row : Option String) {act act' : Rendering α} (h : InStep act act') :
    InStep (Rendering.withRow row act) (Rendering.withRow row act') := by
  cases row with
  | none => rwa [withRow_none, withRow_none]
  | some name =>
    intro s s' hs
    have hinside : SameContext { s with rowTables := s.rowTables ++ [name] }
        { s' with rowTables := s'.rowTables ++ [name] } :=
      ⟨hs.filters, by rw [hs.rows]⟩
    rw [run_withRow, run_withRow]
    obtain ⟨a, u, u', tables, hact, hact', hu, hscopes, hscopes'⟩ | ⟨err, u, u', hact, hact'⟩ :=
      h _ _ hinside
    · rw [hact, hact']
      have hrows : u.rowTables.dropLast = u'.rowTables.dropLast := by rw [hu.rows]
      exact .inl ⟨a, _, _, tables, rfl, rfl, ⟨hu.filters, hrows⟩, hscopes, hscopes'⟩
    · rw [hact, hact']
      exact .inr ⟨err, _, _, rfl, rfl⟩

theorem alongRow (row : Option String) {act act' : Rendering α} (h : InStep act act') :
    InStep (Rendering.alongRow row act) (Rendering.alongRow row act') :=
  (h.withRow row).endsLike (alongRow_endsLike row act) (alongRow_endsLike row act')

theorem inTurn {m m' : Rendering α} {n n' : Rendering β} (hm : InStep m m') (hn : InStep n n') :
    InStep (Rendering.inTurn m n) (Rendering.inTurn m' n') :=
  endsLike (hm.bind fun _ => hn.bind fun _ => .pure _) (inTurn_endsLike m n) (inTurn_endsLike m' n')

/-- **A query of its own** starts without tables, so what it has read is the same, and the query
around it has read nothing. -/
theorem withScope {act act' : Rendering α} (h : InStep act act') :
    InStep (Rendering.withScope act) (Rendering.withScope act') := by
  intro s s' hs
  have hinside :
      SameContext { s with scopes := [] :: s.scopes } { s' with scopes := [] :: s'.scopes } :=
    ⟨hs.filters, hs.rows⟩
  simp only [Rendering.withScope]
  obtain ⟨a, u, u', tables, hact, hact', hu, hscopes, hscopes'⟩ | ⟨err, u, u', hact, hact'⟩ :=
    h _ _ hinside
  · rw [hact, hact']
    refine .inl ⟨(a, tables.foldl addNew []), { u with scopes := s.scopes },
      { u' with scopes := s'.scopes }, [], ?_, ?_, ⟨hu.filters, hu.rows⟩, by simp, by simp⟩
    · simp [hscopes, readAlso, Except.map]
    · simp [hscopes', readAlso, Except.map]
  · rw [hact, hact']
    exact .inr ⟨err, _, _, rfl, rfl⟩

theorem keepingFilters {act act' : Rendering α} (h : InStep act act') :
    InStep (Rendering.keepingFilters act) (Rendering.keepingFilters act') := by
  intro s s' hs
  simp only [Rendering.keepingFilters]
  obtain ⟨a, u, u', tables, hact, hact', hu, hscopes, hscopes'⟩ | ⟨err, u, u', hact, hact'⟩ :=
    h s s' hs
  · rw [hact, hact']
    exact .inl ⟨a, _, _, tables, rfl, rfl, ⟨hs.filters, hu.rows⟩, hscopes, hscopes'⟩
  · rw [hact, hact']
    exact .inr ⟨err, _, _, rfl, rfl⟩

end InStep

end Rules

/-! ## Steps that render no part -/

section Steps

theorem inStep_note (level : Confidence) (warning : String) :
    InStep (note level warning) (note level warning) :=
  .step fun _ => ⟨rfl, rfl, rfl⟩

theorem inStep_useTable (table : String) : InStep (useTable table) (useTable table) := by
  intro s s' hs
  rw [run_useTable, run_useTable]
  exact .inl ⟨(), _, _, [table], rfl, rfl, ⟨hs.filters, hs.rows⟩, rfl, rfl⟩

theorem inStep_forM_useTable (tables : List String) :
    InStep (tables.forM useTable) (tables.forM useTable) := by
  induction tables with
  | nil => exact .pure _
  | cons table tables ih => exact (inStep_useTable table).bind fun _ => ih

theorem inStep_usePattern (t : Target) (p : Pattern) :
    InStep (usePattern t p) (usePattern t p) := by
  have hdialect : ∀ m : Rendering Unit, m =
      (if p.isDialectSpecific && !t.dialect.runsTemplates then
        note .medium (p.name ++ " uses Snowflake-specific SQL; review it for " ++ t.dialect.name)
      else Pure.pure ()) → InStep m m := by
    rintro m rfl
    exact .ite (inStep_note _ _) (.pure _)
  refine InStep.bind (.step fun _ => ⟨rfl, rfl, rfl⟩) fun _ => ?_
  refine .ite (InStep.bind (inStep_note _ _) fun _ => ?_) ?_
  all_goals
    refine .ite (InStep.bind (.step fun _ => ⟨rfl, rfl, rfl⟩) fun _ => ?_) ?_
    all_goals exact hdialect _ rfl

theorem inStep_usePatternNamed (t : Target) (name : String) :
    InStep (usePatternNamed t name) (usePatternNamed t name) := by
  rw [usePatternNamed]
  split
  · exact inStep_usePattern t _
  · exact .pure _

theorem inStep_resolveTable (t : Target) (name : String) :
    InStep (resolveTable t name) (resolveTable t name) := by
  have huse : ∀ resolved, InStep (do useTable resolved; Pure.pure resolved)
      (do useTable resolved; Pure.pure resolved) :=
    fun resolved => (inStep_useTable resolved).bind fun _ => .pure _
  rw [resolveTable]
  dsimp only
  split
  · split
    · exact InStep.bind (.pure _) huse
    · exact InStep.bind (inStep_note _ _) fun _ => InStep.bind (.pure _) huse
  · exact InStep.bind (inStep_note _ _) fun _ => InStep.bind (.pure _) huse

/-- A column in brackets alone is looked for in the rows, which are the same. -/
theorem inStep_resolveColumn (t : Target) (ref : ColumnRef) :
    InStep (resolveColumn t ref) (resolveColumn t ref) := by
  rw [resolveColumn]
  split
  · refine InStep.bind (inStep_resolveTable t _) fun _ => ?_
    split
    · exact .pure _
    · split
      · exact .pure _
      · exact InStep.bind (inStep_note _ _) fun _ => .pure _
  · rw [resolveBare]
    split
    · refine InStep.get fun s s' hs => ?_
      rw [hs.rows]
      split
      · exact InStep.bind (inStep_useTable _) fun _ => .pure _
      · exact InStep.bind (inStep_note _ _) fun _ => .pure _
    · refine InStep.bind (inStep_note _ _) fun _ => InStep.get fun s s' hs => ?_
      rw [hs.rows]
      split
      · exact .pure _
      · exact .pure _

theorem inStep_noteUnjoined (base : String) (tables : List String) :
    InStep (noteUnjoined base tables) (noteUnjoined base tables) := by
  induction tables with
  | nil => exact .pure _
  | cons table tables ih => exact InStep.bind (inStep_note _ _) fun _ => ih

theorem inStep_reachable (schema : Schema) (base : String) (tables : List String) :
    InStep (reachable schema base tables) (reachable schema base tables) := by
  induction tables with
  | nil => exact .pure _
  | cons table tables ih =>
    rw [reachable]
    exact .ite (InStep.bind ih fun _ => .pure _) (InStep.bind (inStep_note _ _) fun _ => ih)

theorem inStep_fromClause (t : Target) (tables : List String) :
    InStep (fromClause t tables) (fromClause t tables) := by
  unfold fromClause
  split
  · exact .pure _
  · refine .ite (.pure _) ?_
    split
    · exact InStep.bind (inStep_noteUnjoined _ _) fun _ => .pure _
    · refine InStep.bind (inStep_reachable _ _ _) fun others => ?_
      split
      · exact .pure _
      · exact InStep.bind (inStep_note _ _) fun _ => .pure _

theorem inStep_fillPattern (t : Target) (p : Pattern) (bindings : Bindings) :
    InStep (fillPattern t p bindings) (fillPattern t p bindings) := by
  rw [fillPattern]
  split
  · exact .pure _
  · exact .fail _

theorem inStep_noteMissing (pattern : String) (params : List String) :
    InStep (noteMissing pattern params) (noteMissing pattern params) := by
  induction params with
  | nil => exact .pure _
  | cons param params ih => exact InStep.bind (inStep_note _ _) fun _ => ih

theorem inStep_applyPattern (t : Target) (p : Pattern) (args : List String)
    (table : Option String) :
    InStep (applyPattern t p args table) (applyPattern t p args table) := by
  have hfill : ∀ bindings, InStep (do usePattern t p; fillPattern t p bindings)
      (do usePattern t p; fillPattern t p bindings) :=
    fun bindings => (inStep_usePattern t p).bind fun _ => inStep_fillPattern t p bindings
  rw [applyPattern]
  refine InStep.bind (inStep_noteMissing _ _) fun _ => ?_
  refine .ite (InStep.bind (inStep_note _ _) fun _ => ?_) ?_
  all_goals
    dsimp only
    split
    · split
      · exact hfill _
      · exact InStep.bind (inStep_note _ _) fun _ => hfill _
    · exact hfill _

end Steps

end MeasureSql.Rendering
