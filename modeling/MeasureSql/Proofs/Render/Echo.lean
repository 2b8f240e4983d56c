import MeasureSql.Proofs.Dax.LetterCase
import MeasureSql.Proofs.Pattern.Form
import MeasureSql.Proofs.Render.Frame
import MeasureSql.Proofs.Render.Levels
import MeasureSql.Proofs.Render.Outcome
import MeasureSql.Proofs.Schema.Clauses
import MeasureSql.Proofs.Text.LetterCase

/-!
# Echoes

Two renderings of one expression in two spellings do the same, step by step: they give the same text
or stop with the same error, and they come to states that differ in their warnings only, which quote
names as they were written.  On the way every text that is made is put together from a vocabulary,
if the names and literals of the expression and the names of the schema belong to it.  Both are
carried by one relation between computations, because they follow the same rules.

## Main definitions

* `Vocabulary.Fits` — the names of a schema belong to a vocabulary.
* `InVocabulary` — so do all texts that a state holds.
* `Echoes` — a computation and one that does the same, with what is known of its value.

## Main results

* `Echoes.bind` — one computation after another.
* `echoes_resolveTable`, `echoes_resolveColumn` — names in two spellings.
* `echoes_fromClause`, `echoes_applyPattern`, … — steps that render no part.
-/

namespace MeasureSql

open Dax Sql

namespace Sql.Vocabulary

/-- The names of a schema belong to the vocabulary. -/
structure HoldsSchema (V : Vocabulary) (schema : Schema) : Prop where
  table : ∀ tb ∈ schema.tables, V.name tb.name ∧ V.word tb.fullName
  column : ∀ tb ∈ schema.tables, ∀ c ∈ tb.columns, V.name c.name
  relationship : ∀ r ∈ schema.relationships,
    V.name r.fromTable ∧ V.name r.fromColumn ∧ V.name r.toTable ∧ V.name r.toColumn

/-- The vocabulary can be used for a target: its schema, and the catalog. -/
structure Fits (V : Vocabulary) (t : Target) : Prop where
  patterns : t.patterns = .builtin
  schema : ∀ schema ∈ t.schema?, V.HoldsSchema schema

/-- The names that may be guessed for a column belong to the vocabulary. -/
structure HoldsColumn (V : Vocabulary) (ref : ColumnRef) : Prop where
  column : V.name (guess ref.column)
  table : ∀ table ∈ ref.table, V.name (guess table)

end Sql.Vocabulary

namespace Rendering

variable {V : Vocabulary} {t : Target} {α β : Type}

/-! ## Two computations -/

/-- The conditions are put together from a vocabulary, and the tables that they are filed under
belong to it. -/
structure FiltersIn (V : Vocabulary) (t : Target) (f : FilterContext) : Prop where
  conditions : ∀ e ∈ f.entries, ∀ c ∈ e.2, Composed V c
  keys : ∀ e ∈ f.entries, ∀ table ∈ keyTable? e.1, V.name (t.keyName table)

/-- What a state holds is put together from a vocabulary: the filters, and the tables that are
read. -/
structure InVocabulary (V : Vocabulary) (t : Target) (s : RenderState) : Prop where
  filters : FiltersIn V t s.filters
  rows : ∀ r ∈ s.rowTables, V.name r
  scopes : ∀ scope ∈ s.scopes, ∀ r ∈ scope, V.name r

namespace InVocabulary

variable {s : RenderState}

/-- The rows of a table of the vocabulary belong to it. -/
theorem enter (h : InVocabulary V t s) {name : String} (hname : V.name name) :
    InVocabulary V t { s with rowTables := s.rowTables ++ [name] } where
  filters := h.filters
  rows := List.forall_mem_append.mpr ⟨h.rows, List.forall_mem_singleton.mpr hname⟩
  scopes := h.scopes

/-- Rows that are left take nothing along. -/
theorem leave (h : InVocabulary V t s) :
    InVocabulary V t { s with rowTables := s.rowTables.dropLast } where
  filters := h.filters
  rows r hr := h.rows r (List.dropLast_subset _ hr)
  scopes := h.scopes

end InVocabulary

/-- The states differ in their warnings only. -/
def SameButWarnings (s s' : RenderState) : Prop :=
  ∃ ws, s' = { s with warnings := ws }

theorem SameButWarnings.refl (s : RenderState) : SameButWarnings s s :=
  ⟨s.warnings, rfl⟩

/-- **The second computation echoes the first**: from states that differ in their warnings only the
results are the same and so are the states afterwards, but for the warnings.  From a state in the
vocabulary it comes to such a state, and a value is as it should be. -/
def Echoes (V : Vocabulary) (t : Target) (Q : α → Prop) (m m' : Rendering α) : Prop :=
  ∀ s s', InVocabulary V t s → SameButWarnings s s' →
    (m' s').1 = (m s).1 ∧ SameButWarnings (m s).2 (m' s').2 ∧
      InVocabulary V t (m s).2 ∧ ∀ a, (m s).1 = .ok a → Q a

namespace Echoes

variable {Q : α → Prop} {m m' : Rendering α}

theorem pure {a : α} (h : Q a) : Echoes V t Q (Pure.pure a) (Pure.pure a) :=
  fun _ _ hs same => ⟨rfl, same, hs, fun _ hb => Except.ok.inj hb ▸ h⟩

theorem fail (err : TemplateError) : Echoes V t Q (throw err) (throw err) :=
  fun _ _ hs same => ⟨rfl, same, hs, fun _ h => nomatch h⟩

/-- **One computation after another.** -/
theorem bind {Q' : β → Prop} {f f' : α → Rendering β} (hm : Echoes V t Q m m')
    (hf : ∀ a, Q a → Echoes V t Q' (f a) (f' a)) :
    Echoes V t Q' (m >>= f) (m' >>= f') := by
  intro s s' hs same
  rw [run_bind, run_bind]
  have run := hm s s' hs same
  generalize m s = x, m' s' = x' at run
  obtain ⟨result, u⟩ := x
  obtain ⟨result', u'⟩ := x'
  obtain ⟨rfl, same', hu, value⟩ := run
  cases result' with
  | ok a => exact hf a (value a rfl) u u' hu same'
  | error err => exact ⟨rfl, same', hu, fun _ h => nomatch h⟩

theorem ite {c : Prop} [Decidable c] {n n' : Rendering α} (hm : Echoes V t Q m m')
    (hn : Echoes V t Q n n') :
    Echoes V t Q (if c then m else n) (if c then m' else n') := by
  split
  · exact hm
  · exact hn

/-- A change of the state. -/
theorem step {g g' : RenderState → RenderState}
    (same : ∀ s s', SameButWarnings s s' → SameButWarnings (g s) (g' s'))
    (good : ∀ s, InVocabulary V t s → InVocabulary V t (g s)) :
    Echoes V t (fun _ => True) (modify g : Rendering Unit) (modify g' : Rendering Unit) :=
  fun s s' hs h => ⟨rfl, same s s' h, good s hs, fun _ _ => trivial⟩

/-- What follows may look at the state, but not at its warnings. -/
theorem get {f f' : RenderState → Rendering α}
    (h : ∀ s s', InVocabulary V t s → SameButWarnings s s' → Echoes V t Q (f s) (f' s')) :
    Echoes V t Q (get >>= f) (get >>= f') := by
  intro s s' hs same
  rw [run_bind, run_bind]
  exact h s s' hs same s s' hs same

/-- The outcomes of the computations, also where they are errors. -/
theorem observing (h : Echoes V t Q m m') :
    Echoes V t (fun outcome => ∀ a, outcome = .ok a → Q a)
      (observing m : Rendering (Except TemplateError α)) (observing m') := by
  intro s s' hs same
  obtain ⟨result, state, good, value⟩ := h s s' hs same
  rw [run_observing, run_observing]
  refine ⟨congrArg Except.ok result, state, good, fun outcome h => ?_⟩
  cases h
  exact value

theorem ofExcept {outcome : Except TemplateError α} (h : ∀ a, outcome = .ok a → Q a) :
    Echoes V t Q (ofExcept outcome) (ofExcept outcome) := by
  intro s s' hs same
  rw [run_ofExcept, run_ofExcept]
  exact ⟨rfl, same, hs, h⟩

theorem enterRow {row : Option String} (hrow : ∀ r ∈ row, V.name r) :
    Echoes V t (fun _ => True) (Rendering.enterRow row) (Rendering.enterRow row) := by
  cases row with
  | none => exact .pure trivial
  | some name =>
    refine .step ?_ fun _ hs => hs.enter (hrow name rfl)
    rintro s _ ⟨ws, rfl⟩
    exact ⟨ws, rfl⟩

theorem leaveRow (row : Option String) :
    Echoes V t (fun _ => True) (Rendering.leaveRow row) (Rendering.leaveRow row) := by
  cases row with
  | none => exact .pure trivial
  | some name =>
    refine .step ?_ fun _ hs => hs.leave
    rintro s _ ⟨ws, rfl⟩
    exact ⟨ws, rfl⟩

theorem withRow {row : Option String} (hrow : ∀ r ∈ row, V.name r) (h : Echoes V t Q m m') :
    Echoes V t Q (Rendering.withRow row m) (Rendering.withRow row m') :=
  (enterRow hrow).bind fun _ _ => h.observing.bind fun _ value =>
    (leaveRow row).bind fun _ _ => ofExcept value

theorem alongRow {row : Option String} (hrow : ∀ r ∈ row, V.name r) (h : Echoes V t Q m m') :
    Echoes V t Q (Rendering.alongRow row m) (Rendering.alongRow row m') :=
  (enterRow hrow).bind fun _ _ => h.bind fun _ value =>
    (leaveRow row).bind fun _ _ => .pure value

/-- Two parts in turn: after an error, too, the states differ in their warnings only. -/
theorem inTurn {Q' : β → Prop} {n n' : Rendering β} (hm : Echoes V t Q m m')
    (hn : Echoes V t Q' n n') :
    Echoes V t (fun x => Q x.1 ∧ Q' x.2) (Rendering.inTurn m n) (Rendering.inTurn m' n') :=
  hm.observing.bind fun _ value => hn.observing.bind fun _ value' =>
    (ofExcept value).bind fun _ ha => (ofExcept value').bind fun _ hb => .pure ⟨ha, hb⟩

theorem withScope (h : Echoes V t Q m m') :
    Echoes V t (fun x => Q x.1 ∧ ∀ r ∈ x.2, V.name r) (Rendering.withScope m)
      (Rendering.withScope m') := by
  rintro s _ hs ⟨ws, rfl⟩
  have inside : InVocabulary V t { s with scopes := [] :: s.scopes } :=
    ⟨hs.filters, hs.rows, List.forall_mem_cons.mpr ⟨by simp, hs.scopes⟩⟩
  have run := h _ { s with scopes := [] :: s.scopes, warnings := ws } inside ⟨ws, rfl⟩
  simp only [Rendering.withScope]
  generalize m { s with scopes := [] :: s.scopes } = x,
    m' { s with scopes := [] :: s.scopes, warnings := ws } = x' at run
  obtain ⟨result, u⟩ := x
  obtain ⟨result', u'⟩ := x'
  obtain ⟨same, ⟨ws', rfl⟩, hu, value⟩ := run
  obtain rfl : result' = result := same
  have read : ∀ r ∈ u.scopes.headD [], V.name r := by
    cases hscopes : u.scopes with
    | nil => simp
    | cons scope outer => exact hu.scopes scope (by simp [hscopes])
  refine ⟨rfl, ⟨ws', rfl⟩, ⟨hu.filters, hu.rows,
    fun scope hscope => hu.scopes scope (List.mem_of_mem_tail hscope)⟩, fun x hx => ?_⟩
  cases result' with
  | ok a => exact Except.ok.inj hx ▸ ⟨value a rfl, read⟩
  | error err => cases hx

theorem keepingFilters (h : Echoes V t Q m m') :
    Echoes V t Q (Rendering.keepingFilters m) (Rendering.keepingFilters m') := by
  rintro s _ hs ⟨ws, rfl⟩
  have run := h s { s with warnings := ws } hs ⟨ws, rfl⟩
  simp only [Rendering.keepingFilters]
  generalize m s = x, m' { s with warnings := ws } = x' at run
  obtain ⟨result, u⟩ := x
  obtain ⟨result', u'⟩ := x'
  obtain ⟨same, ⟨ws', rfl⟩, hu, value⟩ := run
  exact ⟨same, ⟨ws', rfl⟩, ⟨hs.filters, hu.rows, hu.scopes⟩, value⟩

end Echoes

/-! ## Steps that render no part -/

theorem echoes_note (level : Confidence) (warning warning' : String) :
    Echoes V t (fun _ => True) (note level warning) (note level warning') := by
  refine .step ?_ fun s hs => ⟨hs.filters, hs.rows, hs.scopes⟩
  rintro s _ ⟨ws, rfl⟩
  exact ⟨_, rfl⟩

theorem echoes_demote (level : Confidence) :
    Echoes V t (fun _ => True) (demote level) (demote level) := by
  refine .step ?_ fun s hs => ⟨hs.filters, hs.rows, hs.scopes⟩
  rintro s _ ⟨ws, rfl⟩
  exact ⟨_, rfl⟩

theorem echoes_useTable {table : String} (h : V.name table) :
    Echoes V t (fun _ => True) (useTable table) (useTable table) := by
  refine .step ?_ fun s hs => ⟨hs.filters, hs.rows, ?_⟩
  · rintro s _ ⟨ws, rfl⟩
    exact ⟨_, rfl⟩
  · dsimp only
    split
    · simp
    · next scope outer hscopes =>
      obtain ⟨hscope, houter⟩ := List.forall_mem_cons.mp (hscopes ▸ hs.scopes)
      refine List.forall_mem_cons.mpr ⟨fun r hr => ?_, houter⟩
      exact (mem_addNew.mp hr).elim (hscope r) fun same => same ▸ h

theorem echoes_forM_useTable {tables : List String} (h : ∀ table ∈ tables, V.name table) :
    Echoes V t (fun _ => True) (tables.forM useTable) (tables.forM useTable) := by
  induction tables with
  | nil => exact .pure trivial
  | cons table tables ih =>
    obtain ⟨htable, htables⟩ := List.forall_mem_cons.mp h
    exact (echoes_useTable htable).bind fun _ _ => ih htables

theorem echoes_usePattern (p : Pattern) :
    Echoes V t (fun _ => True) (usePattern t p) (usePattern t p) := by
  have dialect : ∀ m : Rendering Unit, m =
      (if p.isDialectSpecific && !t.dialect.runsTemplates then
        note .medium (p.name ++ " uses Snowflake-specific SQL; review it for " ++ t.dialect.name)
      else Pure.pure ()) → Echoes V t (fun _ => True) m m := by
    rintro m rfl
    exact .ite (echoes_note _ _ _) (.pure trivial)
  refine Echoes.bind (Q := fun _ => True) (.step ?_ fun s hs =>
    ⟨hs.filters, hs.rows, hs.scopes⟩) fun _ _ => ?_
  · rintro s _ ⟨ws, rfl⟩
    exact ⟨_, rfl⟩
  · refine .ite (Echoes.bind (echoes_note _ _ _) fun _ _ => ?_) ?_
    all_goals
      refine .ite (Echoes.bind (echoes_demote _) fun _ _ => ?_) ?_
      all_goals exact dialect _ rfl

theorem get?_congr (l : PatternLibrary) {name name' : String}
    (h : Text.upper name' = Text.upper name) : l.get? name' = l.get? name := by
  simp only [PatternLibrary.get?, h]

theorem echoes_usePatternNamed {name name' : String} (h : Text.upper name' = Text.upper name) :
    Echoes V t (fun _ => True) (usePatternNamed t name) (usePatternNamed t name') := by
  unfold usePatternNamed
  rw [get?_congr _ h]
  split
  · exact echoes_usePattern _
  · exact .pure trivial

theorem echoes_noteMissing (pattern : String) (params : List String) :
    Echoes V t (fun _ => True) (noteMissing pattern params) (noteMissing pattern params) := by
  induction params with
  | nil => exact .pure trivial
  | cons param params ih => exact (echoes_note _ _ _).bind fun _ _ => ih

/-! ## Names -/

theorem word_fromName (ht : V.Fits t) {table : String} (h : V.name table) :
    V.word (t.fromName table) := by
  unfold Target.fromName
  cases found : t.schema?.bind (·.table? table) with
  | none => exact V.word_of_name h
  | some tb =>
    obtain ⟨schema, hschema, htable⟩ := Option.bind_eq_some_iff.mp found
    exact ((ht.schema schema hschema).table tb (Schema.mem_of_table? htable)).2

theorem composed_fromName (ht : V.Fits t) {table : String} (h : V.name table) :
    Composed V (t.fromName table) :=
  .word (word_fromName ht h)

/-- **A table** has the same SQL name in both spellings. -/
theorem echoes_resolveTable (ht : V.Fits t) {name : String} (h : V.name (guess name)) :
    Echoes V t V.name (resolveTable t name) (resolveTable t (Text.asciiUpper name)) := by
  have use {resolved : String} (hname : V.name resolved) :
      Echoes V t V.name (do useTable resolved; Pure.pure resolved)
        (do useTable resolved; Pure.pure resolved) :=
    (echoes_useTable hname).bind fun _ _ => .pure hname
  unfold resolveTable
  rw [guess_asciiUpper]
  cases hschema : t.schema? with
  | none =>
    exact (echoes_note _ _ _).bind fun _ _ => Echoes.bind (.pure h) fun _ => use
  | some schema =>
    dsimp only
    rw [Schema.table?_congr (Text.upper_asciiUpper name)]
    cases found : schema.table? name with
    | none => exact (echoes_note _ _ _).bind fun _ _ => Echoes.bind (.pure h) fun _ => use
    | some tb =>
      have hname := ((ht.schema schema hschema).table tb (Schema.mem_of_table? found)).1
      exact Echoes.bind (.pure hname) fun _ => use

/-- The SQL names of a column belong to the vocabulary. -/
structure ColumnIn (V : Vocabulary) (c : ResolvedColumn) : Prop where
  sql : V.word c.sql
  table : ∀ table ∈ c.table, V.name table

theorem ColumnIn.ofTable {table column : String} (htable : V.name table) (hcolumn : V.name column) :
    ColumnIn V (.ofTable table column) :=
  ⟨V.word_dotted htable hcolumn, fun _ h => Option.some.inj h ▸ htable⟩

theorem ColumnIn.bare {column : String} (h : V.name column) : ColumnIn V (.bare column) :=
  ⟨V.word_of_name h, fun _ h => nomatch h⟩

/-- A column with its table has the same SQL names in both spellings. -/
theorem echoes_resolveQualified (ht : V.Fits t) {table column : String}
    (h : V.HoldsColumn ⟨some table, column⟩) :
    Echoes V t (ColumnIn V) (resolveQualified t ⟨some table, column⟩ table)
      (resolveQualified t (ColumnRef.inCapitals ⟨some table, column⟩) (Text.asciiUpper table)) := by
  unfold resolveQualified
  refine (echoes_resolveTable ht (h.table table rfl)).bind fun tableSql htable => ?_
  dsimp only [ColumnRef.inCapitals]
  rw [guess_asciiUpper]
  cases hschema : t.schema? with
  | none => exact .pure (.ofTable htable h.column)
  | some schema =>
    dsimp only
    have column_eq : schema.column? (Text.asciiUpper table) (Text.asciiUpper column) =
        schema.column? table column := by
      rw [Schema.column?, Schema.table?_congr (Text.upper_asciiUpper table),
        Text.upper_asciiUpper]
      rfl
    rw [column_eq]
    cases found : schema.column? table column with
    | none => exact (echoes_note _ _ _).bind fun _ _ => .pure (.ofTable htable h.column)
    | some c =>
      obtain ⟨tb, htb, hc⟩ := Option.bind_eq_some_iff.mp found
      exact .pure (.ofTable htable ((ht.schema schema hschema).column tb
        (Schema.mem_of_table? htb) c (List.mem_of_find?_eq_some hc)))

/-- So has a column without one: it is searched for by its name in capitals. -/
theorem echoes_resolveBare (ht : V.Fits t) {column : String} (h : V.HoldsColumn ⟨none, column⟩) :
    Echoes V t (ColumnIn V) (resolveBare t column) (resolveBare t (Text.asciiUpper column)) := by
  unfold resolveBare
  rw [guess_asciiUpper]
  cases hschema : t.schema? with
  | some schema =>
    refine .get ?_
    rintro s _ hs ⟨ws, rfl⟩
    dsimp only
    have column_eq : schema.findColumn? (Text.asciiUpper column) s.rowTables =
        schema.findColumn? column s.rowTables := by
      rw [Schema.findColumn?, Text.upper_asciiUpper]
      rfl
    rw [column_eq]
    cases found : schema.findColumn? column s.rowTables with
    | none => exact (echoes_note _ _ _).bind fun _ _ => .pure (.bare h.column)
    | some found' =>
      obtain ⟨tb, c⟩ := found'
      obtain ⟨htb, hfound⟩ := Schema.mem_of_findColumn? found
      have hc := List.mem_of_find?_eq_some hfound
      have known := ht.schema schema hschema
      exact (echoes_useTable (known.table tb htb).1).bind fun _ _ =>
        .pure (.ofTable (known.table tb htb).1 (known.column tb htb c hc))
  | none =>
    refine (echoes_note _ _ _).bind fun _ _ => .get ?_
    rintro s _ hs ⟨ws, rfl⟩
    dsimp only
    cases last : s.rowTables.getLast? with
    | none => exact .pure (.bare h.column)
    | some table =>
      exact .pure (.ofTable (hs.rows table (List.mem_of_getLast? last)) h.column)

/-- **A column** has the same SQL names in both spellings. -/
theorem echoes_resolveColumn (ht : V.Fits t) {ref : ColumnRef} (h : V.HoldsColumn ref) :
    Echoes V t (ColumnIn V) (resolveColumn t ref) (resolveColumn t ref.inCapitals) := by
  obtain ⟨table, column⟩ := ref
  cases table with
  | some table => exact echoes_resolveQualified ht h
  | none => exact echoes_resolveBare ht h

/-! ## Tables that are joined -/

theorem echoes_noteUnjoined (base : String) (tables : List String) :
    Echoes V t (fun _ => True) (noteUnjoined base tables) (noteUnjoined base tables) := by
  induction tables with
  | nil => exact .pure trivial
  | cons table tables ih => exact (echoes_note _ _ _).bind fun _ _ => ih

theorem echoes_reachable (schema : Schema) (base : String) (tables : List String) :
    Echoes V t (fun _ => True) (reachable schema base tables) (reachable schema base tables) := by
  induction tables with
  | nil => exact .pure trivial
  | cons table tables ih =>
    unfold reachable
    exact .ite (ih.bind fun _ _ => .pure trivial) ((echoes_note _ _ _).bind fun _ _ => ih)

theorem composed_clauseFor {schema : Schema} (h : V.HoldsSchema schema) {r : Relationship}
    (hr : r ∈ schema.relationships) {table : String}
    (ends : table = r.fromTable ∨ table = r.toTable) : Composed V (schema.clauseFor table r) := by
  obtain ⟨fromTable, fromColumn, toTable, toColumn⟩ := h.relationship r hr
  have physical : V.word (((schema.table? table).map (·.fullName)).getD table) := by
    cases found : schema.table? table with
    | none =>
      rcases ends with rfl | rfl
      · exact V.word_of_name fromTable
      · exact V.word_of_name toTable
    | some tb => exact (h.table tb (Schema.mem_of_table? found)).2
  have condition : Composed V r.joinCondition := by
    have sides := Composed.infixed (by simp [leads] : "=" ∈ leads)
      (.word (V.word_dotted fromTable fromColumn)) (.word (V.word_dotted toTable toColumn))
    simpa [Relationship.joinCondition, String.append_assoc] using sides
  have text (physical : String) : "JOIN " ++ physical ++ " ON " ++ r.joinCondition =
      "JOIN" ++ " " ++ (physical ++ " " ++ "ON" ++ " " ++ r.joinCondition) := by
    simp [← String.toList_inj]
  rw [Schema.clauseFor, text]
  exact .led (by simp [leads]) (.infixed (by simp [leads]) (.word physical) condition)

/-- **Tables joined.** -/
theorem echoes_fromClause (ht : V.Fits t) {tables : List String} (ne : tables ≠ [])
    (h : ∀ table ∈ tables, V.name table) :
    Echoes V t (Composed V) (fromClause t tables) (fromClause t tables) := by
  cases tables with
  | nil => exact absurd rfl ne
  | cons base rest =>
    have start := composed_fromName ht (h base List.mem_cons_self)
    unfold fromClause
    refine .ite (.pure start) ?_
    cases hschema : t.schema? with
    | none => exact (echoes_noteUnjoined _ _).bind fun _ _ => .pure start
    | some schema =>
      refine (echoes_reachable _ _ _).bind fun others _ => ?_
      cases clauses : schema.joinClauses (base :: others) with
      | error e => exact (echoes_note _ _ _).bind fun _ _ => .pure start
      | ok clauses' =>
        refine .pure (.intercalate (by simp [separators]) (by simp) ?_)
        refine List.forall_mem_cons.mpr ⟨start, fun c hc => ?_⟩
        obtain ⟨r, hr, table, ends, rfl⟩ := Schema.exists_relationship_of_joinClauses clauses c hc
        exact composed_clauseFor (ht.schema schema hschema) hr ends

/-! ## Patterns -/

theorem mem_builtin (ht : V.Fits t) {name : String} {p : Pattern}
    (h : t.patterns.get? name = some p) : p ∈ Catalog.builtin :=
  (PatternLibrary.mem_builtin_of_get? (ht.patterns ▸ h)).1

theorem echoes_fillPattern {p : Pattern} (hp : p ∈ Catalog.builtin) {b : Bindings}
    (hb : Catalog.AllFill V b) :
    Echoes V t (Composed V) (fillPattern t p b) (fillPattern t p b) := by
  unfold fillPattern
  cases result : p.render t.dialect b with
  | ok sql => exact .pure (Catalog.composed_render hp hb result)
  | error err => exact .fail err

/-- **Arguments put into a pattern.** -/
theorem echoes_applyPattern (ht : V.Fits t) {p : Pattern} (hp : p ∈ Catalog.builtin)
    {args : List String} (hargs : ∀ a ∈ args, Composed V a) {table : Option String}
    (htable : ∀ name ∈ table, V.name name) :
    Echoes V t (Composed V) (applyPattern t p args table) (applyPattern t p args table) := by
  have bound := Catalog.allFill_bind hp hargs
  have filled {b : Bindings} (hb : Catalog.AllFill V b) :
      Echoes V t (Composed V) (do usePattern t p; fillPattern t p b)
        (do usePattern t p; fillPattern t p b) :=
    (echoes_usePattern p).bind fun _ _ => echoes_fillPattern hp hb
  have withTable {value : String} (h : Composed V value) :
      Catalog.AllFill V ((p.bind args).bindings.insert "table" value) :=
    bound.insert (.of_composed (by decide) h)
  unfold applyPattern
  refine (echoes_noteMissing _ _).bind fun _ _ => .ite ((echoes_note _ _ _).bind fun _ _ => ?_) ?_
  all_goals
    split
    · cases table with
      | some name => exact filled (withTable (composed_fromName ht (htable name rfl)))
      | none => exact (echoes_note _ _ _).bind fun _ _ => filled (withTable (.fixed (by decide)))
    · exact filled bound

end Rendering

end MeasureSql
