import MeasureSql.Render.Expr

/-!
# How rendering ends

Rendering ends with SQL or with an error, and which of the two does not depend on the state it
starts from.  `Settles P err m` says so of one computation: it stops with `err` from every state
when `P` holds, and gives a value from every state otherwise.  A sequence of computations settles
on the disjunction of what its parts settle on, whatever values are passed along, so the outcome of
a rule can be read off the rule.

## Main definitions

* `EndsLike` — computations that differ only in the state after an error.
* `Settles` — the outcome of a computation, decided in advance.

## Main results

* `run_bind` — one computation after another.
* `exists_of_bind` — the parts of a sequence that gives a value give one each.
* `run_withRow`, `run_alongRow` — a part inside the rows of a table.
* `inTurn_endsLike` — two parts in turn end like a sequence of them.
* `Settles.bind` — the rule for sequences.
* `settles_note`, `settles_useTable`, … — the steps that always succeed.
-/

namespace MeasureSql.Rendering

variable {α β : Type} {P Q : Prop} {err : TemplateError}

/-- One computation after another: an error ends both. -/
theorem run_bind (m : Rendering α) (f : α → Rendering β) (s : RenderState) :
    (m >>= f) s = match m s with
      | (.ok a, s') => f a s'
      | (.error e, s') => (.error e, s') := by
  show ExceptT.bindCont f (m s).1 (m s).2 = _
  rcases m s with ⟨r | a, s'⟩ <;> rfl

/-- The parts of a sequence that gives a value give one each. -/
theorem exists_of_bind {m : Rendering α} {f : α → Rendering β} {s s' : RenderState} {b : β}
    (h : (m >>= f) s = (.ok b, s')) : ∃ a s₁, m s = (.ok a, s₁) ∧ f a s₁ = (.ok b, s') := by
  rw [run_bind] at h
  rcases hm : m s with ⟨err | a, s₁⟩
  · rw [hm] at h
    cases h
  · rw [hm] at h
    exact ⟨a, s₁, rfl, h⟩

/-! ## Rows, and parts in turn -/

/-- The outcome of a part is known, also when it is an error. -/
theorem run_observing (m : Rendering α) (s : RenderState) :
    (observing m : Rendering (Except TemplateError α)) s = (.ok (m s).1, (m s).2) := by
  simp only [observing, tryCatch, tryCatchThe, MonadExceptOf.tryCatch, ExceptT.tryCatch, ExceptT.mk,
    bind, ExceptT.bind, ExceptT.bindCont, StateT.bind, pure, ExceptT.pure]
  rcases m s with ⟨err | a, s'⟩ <;> rfl

theorem run_ofExcept (outcome : Except TemplateError α) (s : RenderState) :
    (ofExcept outcome : Rendering α) s = (outcome, s) := by
  cases outcome <;> rfl

theorem withRow_none (act : Rendering α) : withRow none act = act := by
  funext s
  rw [withRow, run_bind]
  show ((do let outcome ← observing act; leaveRow none; ofExcept outcome) : Rendering α) s = _
  rw [run_bind, run_observing]
  exact run_ofExcept _ _

/-- Inside rows one goes in, and goes out however the part ends. -/
theorem run_withRow (name : String) (act : Rendering α) (s : RenderState) :
    withRow (some name) act s =
      match act { s with rowTables := s.rowTables ++ [name] } with
      | (outcome, s') => (outcome, { s' with rowTables := s'.rowTables.dropLast }) := by
  rw [withRow, run_bind]
  show ((do let outcome ← observing act; leaveRow (some name); ofExcept outcome) : Rendering α)
    { s with rowTables := s.rowTables ++ [name] } = _
  rw [run_bind, run_observing]
  exact run_ofExcept _ _

theorem alongRow_none (act : Rendering α) : alongRow none act = act := by
  funext s
  show (act >>= fun a => leaveRow none >>= fun _ => pure a) s = act s
  rw [run_bind]
  rcases act s with ⟨err | a, s'⟩ <;> rfl

/-- Along rows one goes in, and goes out only if the part gives a value. -/
theorem run_alongRow (name : String) (act : Rendering α) (s : RenderState) :
    alongRow (some name) act s =
      match act { s with rowTables := s.rowTables ++ [name] } with
      | (.ok a, s') => (.ok a, { s' with rowTables := s'.rowTables.dropLast })
      | (.error err, s') => (.error err, s') := by
  show (act >>= fun a => leaveRow (some name) >>= fun _ => pure a)
    { s with rowTables := s.rowTables ++ [name] } = _
  rw [run_bind]
  rcases act { s with rowTables := s.rowTables ++ [name] } with ⟨err | a, s'⟩ <;> rfl

/-- Of two parts in turn the second is run in any case, and the first error counts. -/
theorem run_inTurn (m : Rendering α) (n : Rendering β) (s : RenderState) :
    inTurn m n s = (do let a ← (m s).1; let b ← (n (m s).2).1; pure (a, b), (n (m s).2).2) := by
  simp only [inTurn, run_bind, run_observing]
  generalize n (m s).2 = second
  generalize m s = first
  rcases first with ⟨err | a, s'⟩ <;> rcases second with ⟨err | b, s''⟩ <;> rfl

/-- Two parts in turn give a value if each of them does. -/
theorem isOk_inTurn (m : Rendering α) (n : Rendering β) (s : RenderState) :
    (inTurn m n s).1.isOk = ((m s).1.isOk && (n (m s).2).1.isOk) := by
  rw [run_inTurn]
  generalize n (m s).2 = second
  generalize m s = first
  rcases first with ⟨err | a, s'⟩ <;> rcases second with ⟨err | b, s''⟩ <;> rfl

/-- The computations end in the same way: with the same value in the same state, or with the same
error. -/
def EndsLike (m m' : Rendering α) : Prop :=
  ∀ s, m s = m' s ∨ ∃ err, (m s).1 = .error err ∧ (m' s).1 = .error err

theorem EndsLike.symm {m m' : Rendering α} (h : EndsLike m m') : EndsLike m' m :=
  fun s => (h s).imp Eq.symm fun ⟨err, herr, herr'⟩ => ⟨err, herr', herr⟩

theorem EndsLike.of_ok {m m' : Rendering α} (h : EndsLike m m') {s s' : RenderState} {a : α}
    (hrun : m' s = (.ok a, s')) : m s = (.ok a, s') := by
  obtain hsame | ⟨err, -, herr⟩ := h s
  · exact hsame.trans hrun
  · rw [hrun] at herr
    cases herr

theorem EndsLike.of_error {m m' : Rendering α} (h : EndsLike m m') {s s' : RenderState}
    {err : TemplateError} (hrun : m' s = (.error err, s')) : ∃ s'', m s = (.error err, s'') := by
  obtain hsame | ⟨err', herr, herr'⟩ := h s
  · exact ⟨s', hsame.trans hrun⟩
  · rw [hrun] at herr'
    cases herr'
    exact ⟨(m s).2, Prod.ext herr rfl⟩

/-- Rows that are not left after an error make no other difference. -/
theorem alongRow_endsLike (row : Option String) (act : Rendering α) :
    EndsLike (alongRow row act) (withRow row act) := by
  intro s
  cases row with
  | none => exact .inl (by rw [alongRow_none, withRow_none])
  | some name =>
    rw [run_alongRow, run_withRow]
    rcases act { s with rowTables := s.rowTables ++ [name] } with ⟨err | a, s'⟩
    · exact .inr ⟨err, rfl, rfl⟩
    · exact .inl rfl

/-- **Two parts in turn end like a sequence of them**: what the second does after an error is
lost. -/
theorem inTurn_endsLike (m : Rendering α) (n : Rendering β) :
    EndsLike (inTurn m n) (do let a ← m; let b ← n; pure (a, b)) := by
  intro s
  rw [run_inTurn, run_bind]
  rcases m s with ⟨err | a, s'⟩
  · exact .inr ⟨err, rfl, rfl⟩
  · left
    dsimp only
    rw [run_bind]
    rcases n s' with ⟨err | b, s''⟩ <;> rfl

/-! ## Outcomes that are settled -/

/-- From every state the computation stops with `err` if `P` holds, and gives a value if not. -/
structure Settles (P : Prop) (err : TemplateError) (m : Rendering α) : Prop where
  stops : P → ∀ s, ∃ s', m s = (.error err, s')
  gives : ¬P → ∀ s, ∃ a s', m s = (.ok a, s')

namespace Settles

/-- The condition may be put in other words. -/
theorem congr {m : Rendering α} (h : Settles P err m) (hiff : P ↔ Q) : Settles Q err m :=
  ⟨fun hq => h.stops (hiff.mpr hq), fun hq => h.gives fun hp => hq (hiff.mp hp)⟩

theorem pure (a : α) : Settles False err (Pure.pure a : Rendering α) :=
  ⟨False.elim, fun _ s => ⟨a, s, rfl⟩⟩

/-- A change of the state always succeeds. -/
theorem step (f : RenderState → RenderState) : Settles False err (modify f : Rendering Unit) :=
  ⟨False.elim, fun _ s => ⟨(), f s, rfl⟩⟩

/-- **A sequence stops where one of its parts does.** -/
theorem bind {m : Rendering α} {f : α → Rendering β} (hm : Settles P err m)
    (hf : ∀ a, Settles Q err (f a)) : Settles (P ∨ Q) err (m >>= f) := by
  constructor
  · intro hpq s
    by_cases hp : P
    · obtain ⟨s', hs'⟩ := hm.stops hp s
      exact ⟨s', by rw [run_bind, hs']⟩
    · obtain ⟨a, s', hs'⟩ := hm.gives hp s
      obtain ⟨s'', hs''⟩ := (hf a).stops (hpq.resolve_left hp) s'
      exact ⟨s'', by rw [run_bind, hs']; exact hs''⟩
  · intro hpq s
    obtain ⟨a, s', hs'⟩ := hm.gives (fun hp => hpq (.inl hp)) s
    obtain ⟨b, s'', hs''⟩ := (hf a).gives (fun hq => hpq (.inr hq)) s'
    exact ⟨b, s'', by rw [run_bind, hs']; exact hs''⟩

/-- A first part that always succeeds leaves the outcome to the rest. -/
theorem bind_right {m : Rendering α} {f : α → Rendering β} (hm : Settles False err m)
    (hf : ∀ a, Settles Q err (f a)) : Settles Q err (m >>= f) :=
  (hm.bind hf).congr (by simp)

/-- A last part that always succeeds leaves the outcome to what came before. -/
theorem bind_left {m : Rendering α} {f : α → Rendering β} (hm : Settles P err m)
    (hf : ∀ a, Settles False err (f a)) : Settles P err (m >>= f) :=
  (hm.bind hf).congr (by simp)

theorem ite {c : Prop} [Decidable c] {m n : Rendering α} (hm : Settles P err m)
    (hn : Settles P err n) : Settles P err (if c then m else n) := by
  split
  · exact hm
  · exact hn

/-- What becomes of the state after an error does not matter. -/
theorem endsLike {m m' : Rendering α} (h : Settles P err m') (hlike : EndsLike m m') :
    Settles P err m := by
  constructor
  · intro hp s
    obtain ⟨s', hs'⟩ := h.stops hp s
    exact hlike.of_error hs'
  · intro hp s
    obtain ⟨a, s', hs'⟩ := h.gives hp s
    exact ⟨a, s', hlike.of_ok hs'⟩

theorem withRow (row : Option String) {act : Rendering α} (h : Settles P err act) :
    Settles P err (Rendering.withRow row act) := by
  cases row with
  | none => rwa [withRow_none]
  | some name =>
    constructor
    · intro hp s
      obtain ⟨s', hs'⟩ := h.stops hp { s with rowTables := s.rowTables ++ [name] }
      exact ⟨_, by rw [run_withRow, hs']⟩
    · intro hp s
      obtain ⟨a, s', hs'⟩ := h.gives hp { s with rowTables := s.rowTables ++ [name] }
      exact ⟨a, _, by rw [run_withRow, hs']⟩

theorem alongRow (row : Option String) {act : Rendering α} (h : Settles P err act) :
    Settles P err (Rendering.alongRow row act) :=
  (h.withRow row).endsLike (alongRow_endsLike row act)

theorem inTurn {m : Rendering α} {n : Rendering β} (hm : Settles P err m)
    (hn : Settles Q err n) : Settles (P ∨ Q) err (Rendering.inTurn m n) :=
  Settles.endsLike (hm.bind fun _ => hn.bind_left fun _ => .pure _) (inTurn_endsLike m n)

theorem withScope {act : Rendering α} (h : Settles P err act) :
    Settles P err (Rendering.withScope act) := by
  constructor
  · intro hp s
    obtain ⟨s', hs'⟩ := h.stops hp { s with scopes := [] :: s.scopes }
    exact ⟨{ s' with scopes := s'.scopes.tail }, by simp only [Rendering.withScope, hs']; rfl⟩
  · intro hp s
    obtain ⟨a, s', hs'⟩ := h.gives hp { s with scopes := [] :: s.scopes }
    exact ⟨(a, s'.scopes.headD []), { s' with scopes := s'.scopes.tail },
      by simp only [Rendering.withScope, hs']; rfl⟩

theorem keepingFilters {act : Rendering α} (h : Settles P err act) :
    Settles P err (Rendering.keepingFilters act) := by
  constructor
  · intro hp s
    obtain ⟨s', hs'⟩ := h.stops hp s
    exact ⟨{ s' with filters := s.filters }, by simp only [Rendering.keepingFilters, hs']⟩
  · intro hp s
    obtain ⟨a, s', hs'⟩ := h.gives hp s
    exact ⟨a, { s' with filters := s.filters }, by simp only [Rendering.keepingFilters, hs']⟩

end Settles

/-! ## Steps that always succeed -/

theorem settles_get : Settles False err (get : Rendering RenderState) :=
  ⟨False.elim, fun _ s => ⟨s, s, rfl⟩⟩

theorem settles_note (level : Confidence) (warning : String) :
    Settles False err (note level warning) :=
  .step _

theorem settles_useTable (table : String) : Settles False err (useTable table) :=
  .step _

theorem settles_changeFilters (f : FilterContext → FilterContext) :
    Settles False err (changeFilters f) :=
  .step _

theorem settles_usePattern (t : Target) (p : Pattern) : Settles False err (usePattern t p) := by
  have hdialect : Settles False err
      (if p.isDialectSpecific && !t.dialect.runsTemplates then
        note .medium (p.name ++ " uses Snowflake-specific SQL; review it for " ++ t.dialect.name)
      else Pure.pure ()) := .ite (settles_note _ _) (.pure _)
  have hcomplex : Settles False err (do
      if p.complexity = .complex || p.category = .timeIntelligence then
        demote .medium
      if p.isDialectSpecific && !t.dialect.runsTemplates then
        note .medium
          (p.name ++ " uses Snowflake-specific SQL; review it for " ++ t.dialect.name)) :=
    .ite (Settles.bind_right (.step _) fun _ => hdialect) hdialect
  exact Settles.bind_right (.step _) fun _ =>
    .ite (Settles.bind_right (settles_note _ _) fun _ => hcomplex) hcomplex

theorem settles_usePatternNamed (t : Target) (name : String) :
    Settles False err (usePatternNamed t name) := by
  rw [usePatternNamed]
  split
  · exact settles_usePattern t _
  · exact .pure _

theorem settles_forM_useTable (tables : List String) :
    Settles False err (tables.forM useTable) := by
  induction tables with
  | nil => exact .pure _
  | cons table tables ih =>
    exact Settles.bind_right (settles_useTable table) fun _ => ih

theorem settles_resolveTable (t : Target) (name : String) :
    Settles False err (resolveTable t name) := by
  rw [resolveTable]
  dsimp only
  have huse : ∀ resolved, Settles False err (do useTable resolved; Pure.pure resolved) :=
    fun resolved => Settles.bind_right (settles_useTable resolved) fun _ => .pure _
  split
  · split
    · exact Settles.bind_right (.pure _) huse
    · exact Settles.bind_right (settles_note _ _) fun _ => Settles.bind_right (.pure _) huse
  · exact Settles.bind_right (settles_note _ _) fun _ => Settles.bind_right (.pure _) huse

theorem settles_resolveColumn (t : Target) (ref : Dax.ColumnRef) :
    Settles False err (resolveColumn t ref) := by
  rw [resolveColumn]
  split
  · rw [resolveQualified]
    refine Settles.bind_right (settles_resolveTable t _) fun _ => ?_
    split
    · exact .pure _
    · split
      · exact .pure _
      · exact Settles.bind_right (settles_note _ _) fun _ => .pure _
  · rw [resolveBare]
    split
    · refine Settles.bind_right settles_get fun _ => ?_
      split
      · exact Settles.bind_right (settles_useTable _) fun _ => .pure _
      · exact Settles.bind_right (settles_note _ _) fun _ => .pure _
    · refine Settles.bind_right (settles_note _ _) fun _ => ?_
      refine Settles.bind_right settles_get fun _ => ?_
      split
      · exact .pure _
      · exact .pure _

/-! ## The tables of a subquery -/

theorem settles_noteUnjoined (base : String) (tables : List String) :
    Settles False err (noteUnjoined base tables) := by
  induction tables with
  | nil => exact .pure _
  | cons table tables ih => exact Settles.bind_right (settles_note _ _) fun _ => ih

theorem settles_reachable (schema : Schema) (base : String) (tables : List String) :
    Settles False err (reachable schema base tables) := by
  induction tables with
  | nil => exact .pure _
  | cons table tables ih =>
    rw [reachable]
    exact .ite (Settles.bind_right ih fun _ => .pure _)
      (Settles.bind_right (settles_note _ _) fun _ => ih)

theorem settles_fromClause (t : Target) (tables : List String) :
    Settles False err (fromClause t tables) := by
  unfold fromClause
  split
  · exact .pure _
  · refine .ite (.pure _) ?_
    split
    · exact Settles.bind_right (settles_noteUnjoined _ _) fun _ => .pure _
    · refine Settles.bind_right (settles_reachable _ _ _) fun others => ?_
      split
      · exact .pure _
      · exact Settles.bind_right (settles_note _ _) fun _ => .pure _

/-! ## Patterns -/

/-- A pattern whose holes all have a value gives SQL. -/
theorem settles_fillPattern (t : Target) {p : Pattern} {bindings : Bindings}
    (h : ∃ sql, p.render t.dialect bindings = .ok sql) :
    Settles False err (fillPattern t p bindings) := by
  obtain ⟨sql, hsql⟩ := h
  rw [fillPattern]
  rw [hsql]
  exact .pure sql

/-- A pattern that reports an error stops the rendering with it. -/
theorem stops_fillPattern (t : Target) {p : Pattern} {bindings : Bindings}
    (h : p.render t.dialect bindings = .error err) :
    Settles True err (fillPattern t p bindings) := by
  rw [fillPattern]
  rw [h]
  exact ⟨fun _ s => ⟨s, rfl⟩, fun hn => absurd trivial hn⟩

theorem settles_noteMissing (pattern : String) (params : List String) :
    Settles False err (noteMissing pattern params) := by
  induction params with
  | nil => exact .pure _
  | cons param params ih => exact Settles.bind_right (settles_note _ _) fun _ => ih

end MeasureSql.Rendering
