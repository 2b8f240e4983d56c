import MeasureSql.Proofs.FilterContext
import MeasureSql.Proofs.Render.Query
import MeasureSql.Proofs.Render.Course
import MeasureSql.Proofs.Render.FilterTables
import MeasureSql.Proofs.Render.ShownFilters
import MeasureSql.Proofs.Render.Written
import MeasureSql.Proofs.Schema.Joins

/-!
# What subqueries read

A subquery reads from the tables of its expression, which are recorded while the expression is
rendered, and from the tables of the filters in force, which are read off the keys under which the
conditions were put.  A key knows the first column of its condition only.  So with names that keys
can hold, the tables of the expression's columns and of the first column of each condition are in
the `FROM` clause, or the confidence is low; of the other columns of a condition nothing is known.

## Main definitions

* `Filed` — a condition that was put to the filters, with its expression and key.
* `NamesColumn`, `HasColumn` — the columns of an expression in its own query.
* `ReadBy` — the tables that a `FROM` clause reads.
* `asSubquery`, `inside`, `selectText` — the calls that are subqueries, and their parts.

## Main results

* `invariant_allFiled` — every condition in force is filed under its first column.
* `mem_scope_of_hasColumn` — the tables of the columns of an expression are recorded.
* `readBy_of_fromClause` — every table of a list is read.
* `Engine.readBy_of_query` — what the subqueries of a query read.
-/

namespace MeasureSql

open Dax

namespace Rendering

variable {t : Target} {schema : Schema}

/-! ## Columns are recorded -/

/-- No level is below the lowest. -/
theorem eq_low_of_rank_le {c : Confidence} (h : c.rank ≤ Confidence.low.rank) : c = .low := by
  cases c with
  | low => rfl
  | _ => exact absurd h (by decide)

/-- Low confidence stays low. -/
theorem Held.low {s s' : RenderState} (h : Held s s') (hs : s.confidence = .low) :
    s'.confidence = .low :=
  eq_low_of_rank_le (hs ▸ h.confidence)

theorem Later.low {depth : Nat} {s s' : RenderState} (h : Later depth s s')
    (hs : s.confidence = .low) : s'.confidence = .low :=
  eq_low_of_rank_le (hs ▸ h.confidence)

theorem Led.held_of_run {α : Type} {m : Rendering α} (h : Led false m) {s s' : RenderState}
    {result : Except TemplateError α} (hrun : m s = (result, s')) : Held s s' := by
  have hleads := h s
  rw [hrun] at hleads
  exact hleads.held

theorem low_note (warning : String) (s : RenderState) :
    (note .low warning s).2.confidence = .low := by
  show s.confidence.demote .low = .low
  cases s.confidence <;> rfl

/-- Is the table one of the schema, and recorded in the innermost query?  If it is not one of the
schema, the confidence is low. -/
structure Recorded (schema : Schema) (table : String) (s : RenderState) : Prop where
  known : (∃ tb ∈ schema.tables, tb.name = table) ∨ s.confidence = .low
  scope : s.scopes ≠ [] → table ∈ s.scopes.headD []

theorem Recorded.held {table : String} {s s' : RenderState} (h : Recorded schema table s)
    (hheld : Held s s') : Recorded schema table s' := by
  refine ⟨h.known.imp id hheld.low, fun hne => hheld.top.extended.subset (h.scope ?_)⟩
  rintro hnil
  refine hne (List.length_eq_zero_iff.mp ?_)
  rw [hheld.depth, hnil]
  rfl

theorem mem_scope_useTable (table : String) (s : RenderState)
    (hne : (useTable table s).2.scopes ≠ []) : table ∈ (useTable table s).2.scopes.headD [] := by
  rw [run_useTable] at hne ⊢
  rcases hscopes : s.scopes with _ | ⟨scope, outer⟩
  · simp [hscopes, readAlso] at hne
  · simp [readAlso]

/-- The table is one of the schema, or the confidence is low, and then the table is used. -/
theorem recorded_useTable {table : String} {s : RenderState}
    (h : (∃ tb ∈ schema.tables, tb.name = table) ∨ s.confidence = .low) :
    Recorded schema table (useTable table s).2 :=
  ⟨h.imp id (Held.table table s).low, mem_scope_useTable table s⟩

/-- What comes after a computation is led from where the computation ends. -/
theorem Led.leads_bind {α β : Type} (m : Rendering α) {f : α → Rendering β}
    (hf : ∀ a, Led false (f a)) (s : RenderState) :
    Leads false true (m s).2 ((m >>= f) s).2 := by
  rw [run_bind]
  rcases m s with ⟨err | a, s'⟩
  · exact .refl s'
  · exact (hf a).loosen s'

theorem exists_useTable_of_resolveTable (hschema : t.schema? = some schema) (name : String)
    (s : RenderState) :
    ∃ u, ((∃ tb ∈ schema.tables, tb.name = tableAt t name) ∨ u.confidence = .low) ∧
      (resolveTable t name s).2 = (useTable (tableAt t name) u).2 := by
  unfold resolveTable tableAt
  simp only [hschema, Option.bind_some]
  cases htable : schema.table? name with
  | some tb => exact ⟨s, .inl ⟨tb, Schema.mem_of_table? htable, rfl⟩, rfl⟩
  | none => exact ⟨_, .inr (low_note _ s), rfl⟩

/-- **The table of a column is used** where the column is resolved, and if it is not one of the
schema, the confidence is low by then. -/
theorem exists_useTable_of_resolveColumn (hschema : t.schema? = some schema) (ref : ColumnRef)
    (s : RenderState) {table : String} (h : (columnAt t s.rowTables ref).table = some table) :
    ∃ u, ((∃ tb ∈ schema.tables, tb.name = table) ∨ u.confidence = .low) ∧
      Leads false true (useTable table u).2 (resolveColumn t ref s).2 := by
  unfold resolveColumn
  unfold columnAt at h
  cases hqualified : ref.table with
  | some name =>
    simp only [hqualified] at h ⊢
    obtain rfl : tableAt t name = table := by simpa [ResolvedColumn.ofTable] using h
    obtain ⟨u, hknown, hused⟩ := exists_useTable_of_resolveTable hschema name s
    refine ⟨u, hknown, hused ▸ Led.leads_bind _ (fun _ => ?_) s⟩
    rw [hschema]
    dsimp only
    split
    · exact .pure _
    · exact Led.bind (led_note (by decide) _) fun _ => .pure _
  | none =>
    simp only [hqualified, hschema] at h ⊢
    have hget : (get : Rendering RenderState) s = (.ok s, s) := rfl
    rw [resolveBare, hschema]
    dsimp only
    rw [run_bind, hget]
    dsimp only
    cases hfound : schema.findColumn? ref.column s.rowTables with
    | none => simp [hfound, ResolvedColumn.bare] at h
    | some found =>
      simp only [hfound] at h
      obtain rfl : found.1.name = table := by simpa [ResolvedColumn.ofTable] using h
      exact ⟨s, .inl ⟨found.1, (Schema.mem_of_findColumn? hfound).1, rfl⟩,
        Led.leads_bind _ (fun _ => .pure _) s⟩

/-- **A column is recorded with its table.** -/
theorem recorded_resolveColumn (hschema : t.schema? = some schema) (ref : ColumnRef)
    (s : RenderState) {table : String} (h : (columnAt t s.rowTables ref).table = some table) :
    Recorded schema table (resolveColumn t ref s).2 := by
  obtain ⟨u, hknown, hleads⟩ := exists_useTable_of_resolveColumn hschema ref s h
  exact (recorded_useTable hknown).held hleads.held

theorem Recorded.bind {α β : Type} {table : String} {m : Rendering α} {f : α → Rendering β}
    {s : RenderState} (h : Recorded schema table (m s).2) (hf : ∀ a, Led false (f a)) :
    Recorded schema table ((m >>= f) s).2 :=
  h.held (Led.leads_bind m hf s).held

/-- The expression is a column, or a call that puts the column straight into its pattern. -/
inductive NamesColumn (t : Target) (ref : ColumnRef) : Expr → Prop
  | column : NamesColumn t ref (.column ref)
  | argument {name : String} {args : List Expr} (hmem : .column ref ∈ args)
      (hpattern : (t.patterns.get? name).isSome = true)
      (hplain : renderCall t (renderExpr t) name args = genericCall t (renderExpr t) name args) :
      NamesColumn t ref (.call name args)

theorem recorded_genericArgs (hschema : t.schema? = some schema) {ref : ColumnRef}
    {args : List Expr} (hmem : .column ref ∈ args) (params : List String)
    (first : Option String) {s s' : RenderState} {a : List String × Option String}
    (hrun : genericArgs t (renderExpr t) params first args s = (.ok a, s')) {table : String}
    (h : (columnAt t s.rowTables ref).table = some table) : Recorded schema table s' := by
  induction args generalizing params first s a with
  | nil => cases hmem
  | cons arg args ih =>
    by_cases harg : arg = .column ref
    · subst harg
      have hfirst : Recorded schema table
          (genericArgs t (renderExpr t) params first (.column ref :: args) s).2 :=
        (recorded_resolveColumn hschema ref s h).bind fun _ =>
          Led.bind (.pure _) fun _ =>
            Led.bind (led_genericArgs (led_renderExpr t) _ _ args) fun _ => .pure _
      rwa [hrun] at hfirst
    · have hrest : .column ref ∈ args :=
        (List.mem_cons.mp hmem).resolve_left fun heq => harg heq.symm
      -- The rows are the same when the arguments behind this one are rendered.
      have hlater : ∀ {α : Type} {m : Rendering α} {b : α} {s₁ : RenderState}, Led false m →
          m s = (.ok b, s₁) → (columnAt t s₁.rowTables ref).table = some table := by
        intro α m b s₁ hled hstep
        rwa [(hled.of_ok hstep).rowTables_eq]
      cases arg with
      | column other =>
        obtain ⟨_, s₁, hstep, hrun⟩ := exists_of_bind hrun
        obtain ⟨_, s₂, hpure, hrun⟩ := exists_of_bind hrun
        cases hpure
        obtain ⟨_, s₃, hargs, hlast⟩ := exists_of_bind hrun
        cases hlast
        exact ih hrest _ _ hargs (hlater (led_resolveColumn t other) hstep)
      | _ =>
        obtain ⟨_, s₁, hstep, hrun⟩ := exists_of_bind hrun
        obtain ⟨_, s₂, hpure, hrun⟩ := exists_of_bind hrun
        cases hpure
        obtain ⟨_, s₃, hargs, hlast⟩ := exists_of_bind hrun
        cases hlast
        exact ih hrest _ _ hargs (hlater (led_renderExpr t _) hstep)

/-- A column that the expression names is recorded. -/
theorem NamesColumn.recorded (hschema : t.schema? = some schema) {ref : ColumnRef} {e : Expr}
    (hnames : NamesColumn t ref e) {s s' : RenderState} {sql : String}
    (hrun : renderExpr t e s = (.ok sql, s')) {table : String}
    (h : (columnAt t s.rowTables ref).table = some table) : Recorded schema table s' := by
  rw [renderExpr_eq] at hrun
  cases hnames with
  | column =>
    have hresolved : Recorded schema table (renderWith t (renderExpr t) (.column ref) s).2 :=
      (recorded_resolveColumn hschema ref s h).bind fun _ => .pure _
    rwa [hrun] at hresolved
  | @argument name args hmem hpattern hplain =>
    rw [renderWith, hplain, genericCall] at hrun
    obtain ⟨p, hp⟩ := Option.isSome_iff_exists.mp hpattern
    rw [hp] at hrun
    obtain ⟨⟨sqls, first⟩, s₁, hargs, hfilled⟩ := exists_of_bind hrun
    dsimp only at hfilled
    exact (recorded_genericArgs hschema hmem _ _ hargs h).held
      ((led_applyPattern t p sqls first).held_of_run hfilled)

/-- Rendering the expression from the state comes to a column of the table, in the query in which
the expression stands. -/
def HasColumn (t : Target) (x : Expr × RenderState) (table : String) : Prop :=
  ∃ y ref, Course t x y ∧ y.2.scopes.length = x.2.scopes.length ∧ NamesColumn t ref y.1 ∧
    (columnAt t y.2.rowTables ref).table = some table

/-- The sum of the amounts has a column of the sales. -/
example (hsum : (t.patterns.get? "SUM").isSome = true) (s : RenderState) :
    HasColumn t (.call "SUM" [.column ⟨some "Sales", "Amount"⟩], s) (tableAt t "Sales") :=
  ⟨_, ⟨some "Sales", "Amount"⟩, .refl, rfl, .argument List.mem_cons_self hsum rfl, rfl⟩

/-- **The tables of the columns of an expression are recorded** in the query in which it stands. -/
theorem mem_scope_of_hasColumn (hschema : t.schema? = some schema) {x : Expr × RenderState}
    {table sql : String} {s' : RenderState} (h : HasColumn t x table) (hquery : x.2.scopes ≠ [])
    (hrun : renderExpr t x.1 x.2 = (.ok sql, s')) : table ∈ s'.scopes.headD [] := by
  obtain ⟨y, ref, hcourse, hdepth, hnames, htable⟩ := h
  obtain ⟨hlater, hok⟩ := hcourse.later (Nat.le_refl x.2.scopes.length)
  have hlengths := (led_renderExpr t x.1 x.2).held.depth
  have hlengths' := (led_renderExpr t y.1 y.2).held.depth
  rw [hrun] at hlater hok hlengths
  rcases hpart : renderExpr t y.1 y.2 with ⟨err | part, u⟩
  · rw [hpart] at hok
    exact nomatch hok rfl
  · rw [hpart] at hlater hlengths'
    have hframe : frame x.2.scopes.length u.scopes = u.scopes.headD [] := by
      rw [← hdepth, ← hlengths', frame_length]
    have hframe' : frame x.2.scopes.length s'.scopes = s'.scopes.headD [] := by
      rw [← hlengths, frame_length]
    have hne : u.scopes ≠ [] := by
      rw [← List.length_pos_iff, hlengths', hdepth]
      exact List.length_pos_iff.mpr hquery
    have hmem := (hnames.recorded hschema hpart htable).scope hne
    rw [← hframe']
    exact hlater.tables (hframe ▸ hmem)

/-! ## Conditions are filed under their first column -/

/-- The key under which the condition of an expression is put. -/
def filedUnder (t : Target) (rows : List String) (e : Expr) (condition : String) : String :=
  match e.firstColumn? with
  | some ref => FilterContext.key ((columnAt t rows ref).table.getD "") (columnAt t rows ref).column
  | none => FilterContext.key "" condition

/-- A condition that was put to the filters: it is the SQL of an expression, its key is that of the
first column of the expression, and the table of this column is one of the schema. -/
structure Filed (t : Target) (schema : Schema) (key condition : String) (e : Expr)
    (rows : List String) : Prop where
  rendered : ∃ s, s.rowTables = rows ∧ (renderExpr t e s).1 = .ok condition
  key_eq : key = filedUnder t rows e condition
  known : ∀ ref table, e.firstColumn? = some ref → (columnAt t rows ref).table = some table →
    ∃ tb ∈ schema.tables, tb.name = table

/-- Every condition is filed, or the confidence is low. -/
def AllFiled (t : Target) (schema : Schema) (s : RenderState) : Prop :=
  s.confidence = .low ∨ ∀ entry ∈ s.filters.entries, ∀ condition ∈ entry.2,
    ∃ e rows, Filed t schema entry.1 condition e rows

theorem AllFiled.mono {s s' : RenderState} (h : AllFiled t schema s) (hheld : Held s s')
    (hentries : s'.filters.entries ⊆ s.filters.entries) : AllFiled t schema s' := by
  rcases h with hlow | hall
  · exact .inl (hheld.low hlow)
  · exact .inr fun entry hentry => hall entry (hentries hentry)

/-- Adding a condition that is filed. -/
theorem AllFiled.add {s : RenderState} (h : AllFiled t schema s) {table column condition : String}
    (e : Expr) (rows : List String)
    (hfiled : s.confidence = .low ∨
      Filed t schema (FilterContext.key table column) condition e rows) :
    AllFiled t schema { s with filters := s.filters.add table column condition } := by
  rcases h with hlow | hall
  · exact .inl hlow
  · refine hfiled.imp id fun hfiled entry hentry c hc => ?_
    rcases FilterContext.exists_of_mem_addEntry hentry hc with ⟨rfl, hkey⟩ | ⟨old, hold, hkey, hc⟩
    · exact ⟨e, rows, hkey ▸ hfiled⟩
    · exact hkey ▸ hall old hold c hc

theorem allFiled_addCondition (hschema : t.schema? = some schema) (e : Expr) {s : RenderState}
    (h : AllFiled t schema s) :
    AllFiled t schema (addCondition t (renderExpr t e) e.firstColumn? s).2 := by
  rcases hrun : renderExpr t e s with ⟨err | condition, s₁⟩
  · have hled := led_renderExpr t e s
    rw [hrun] at hled
    rw [run_addCondition_of_error hrun]
    exact h.mono hled.held (hled.filters_eq ▸ List.Subset.refl _)
  · have hled := (led_renderExpr t e).of_ok hrun
    have hrendered : ∃ u : RenderState, u.rowTables = s₁.rowTables ∧
        (renderExpr t e u).1 = .ok condition := ⟨s, hled.rowTables_eq.symm, by rw [hrun]⟩
    obtain ⟨s₂, hled₂, hresolved, hadded⟩ := run_addCondition_of_ok hrun e.firstColumn?
    have hleads := hled.trans hled₂
    have h₂ : AllFiled t schema s₂ := h.mono hleads.held (hleads.filters_eq ▸ List.Subset.refl _)
    rw [hadded]
    refine h₂.add e s₁.rowTables ?_
    by_cases hlow : s₂.confidence = .low
    · exact .inl hlow
    · refine .inr ⟨hrendered, ?_, fun ref table hsome htable => ?_⟩
      · unfold filedUnder filingPlace
        cases e.firstColumn? <;> rfl
      · have hrecorded := recorded_resolveColumn hschema ref s₁ htable
        rw [hresolved ref hsome] at hrecorded
        exact hrecorded.known.resolve_right hlow

/-- **Every condition in force is filed under its first column**, or the confidence is low. -/
theorem invariant_allFiled (hschema : t.schema? = some schema) :
    Invariant t (AllFiled t schema) where
  moves h hs := hs.mono h.held (h.filters_eq ▸ List.Subset.refl _)
  row _ hs := hs
  enter hs := hs
  leave _ _ hs' := hs'
  keep h hs := hs.imp h.held.low id
  lessen hf _ hs := hs.imp id fun hall entry hentry => hall entry (hf.entries _ hentry)
  condition e _ hs := allFiled_addCondition hschema e hs

/-! ## The clause -/

/-- The names of the tables can stand in keys: none is empty or holds a point. -/
def PlainNames (schema : Schema) : Prop :=
  ∀ tb ∈ schema.tables, tb.sqlKey ≠ "" ∧ '.' ∉ tb.sqlKey.toList

/-- **The table of a key in force is one of the tables of the filters.** -/
theorem mem_filterTables (hschema : t.schema? = some schema) (hnamed : schema.WellNamed)
    (hplain : PlainNames schema) {f : FilterContext} {entry : String × List String}
    (hentry : entry ∈ f.effective) {tb : Table} (htb : tb ∈ schema.tables) {column : String}
    (hkey : entry.1 = FilterContext.key tb.name column) : tb.name ∈ t.filterTables f := by
  have htable : schema.table? (Text.upper tb.name) = some tb :=
    (Schema.table?_congr (Text.upper_upper tb.name)).trans (hnamed.byName tb htb)
  have hname : t.keyName (Text.upper tb.name) = tb.name := by
    simp [Target.keyName, hschema, htable]
  obtain ⟨hne, hpoint⟩ := hplain tb htb
  exact mem_filterTables_iff.mpr
    ⟨entry, hentry, Text.upper tb.name, hkey ▸ keyTable?_key column hne hpoint, hname⟩

/-- The `FROM` clause reads the table: it begins with it, or joins it along a relationship. -/
def ReadBy (schema : Schema) (source : String) (tb : Table) : Prop :=
  ∃ first clauses, source = " ".intercalate (first :: clauses) ∧
    (first = tb.fullName ∨
      ∃ r ∈ schema.relationships, "JOIN " ++ tb.fullName ++ " ON " ++ r.joinCondition ∈ clauses)

/-- Each table is among those that can be reached, or is warned of. -/
theorem mem_of_reachable {base : String} {tables others : List String} {s s' : RenderState}
    (hrun : reachable schema base tables s = (.ok others, s')) {table : String}
    (h : table ∈ tables) : table ∈ others ∨ s'.confidence = .low := by
  induction tables generalizing s s' others with
  | nil => cases h
  | cons head tables ih =>
    rw [reachable] at hrun
    split at hrun
    · obtain ⟨rest, s₁, hrest, hlast⟩ := exists_of_bind hrun
      cases hlast
      rcases List.mem_cons.mp h with rfl | h
      · exact .inl List.mem_cons_self
      · exact (ih hrest h).imp (List.mem_cons_of_mem _) id
    · obtain ⟨_, s₁, hnoted, hrest⟩ := exists_of_bind hrun
      rcases List.mem_cons.mp h with rfl | h
      · right
        have hlow : s₁.confidence = .low := by
          cases hnoted
          exact low_note _ s
        exact ((led_reachable schema base tables).held_of_run hrest).low hlow
      · exact ih hrest h

/-- **Every table of a list is read**, or the confidence is low. -/
theorem readBy_of_fromClause (hschema : t.schema? = some schema) (hnamed : schema.WellNamed)
    {tables : List String} {source : String} {s s' : RenderState}
    (hrun : fromClause t tables s = (.ok source, s')) {tb : Table} (htb : tb ∈ schema.tables)
    (h : tb.name ∈ tables) : ReadBy schema source tb ∨ s'.confidence = .low := by
  rcases tables with _ | ⟨base, rest⟩
  · cases h
  have hfirst : schema.table? base = some tb → t.fromName base = tb.fullName := fun htable => by
    simp [Target.fromName, hschema, htable]
  have hown : tb.name = base → t.fromName base = tb.fullName := fun heq =>
    hfirst (heq ▸ hnamed.byName tb htb)
  rw [fromClause] at hrun
  split at hrun
  · next hnone =>
    cases hrun
    obtain rfl : rest = [] := by simpa using hnone
    exact .inl ⟨t.fromName base, [], by simp, .inl (hown (List.mem_singleton.mp h))⟩
  · rw [hschema] at hrun
    obtain ⟨others, s₁, hreach, hrun⟩ := exists_of_bind hrun
    cases hjoin : schema.joinClauses (base :: others) with
    | error e =>
      rw [hjoin] at hrun
      obtain ⟨_, s₂, hnoted, hlast⟩ := exists_of_bind hrun
      cases hnoted
      cases hlast
      exact .inr (low_note _ s₁)
    | ok clauses =>
      rw [hjoin] at hrun
      cases hrun
      have hlisted : tb.name ∈ base :: others ∨ s'.confidence = .low := by
        rcases List.mem_cons.mp h with heq | h
        · exact .inl (heq ▸ List.mem_cons_self)
        · exact (mem_of_reachable hreach h).imp (List.mem_cons_of_mem _) id
      rcases hlisted with hlisted | hlow
      · refine .inl ⟨t.fromName base, clauses, rfl, ?_⟩
        exact (Schema.exists_clause_of_joinClauses hnamed hjoin htb hlisted).imp hfirst id
      · exact .inr hlow

/-! ## Subqueries -/

/-- A call that is a query of its own: its name, its expression and its filters.  A total to date
has the dates of its period as the first filter. -/
def asSubquery : Expr → Option (String × Expr × List Expr)
  | .call name args =>
    let upper := Text.asciiUpper name
    if upper ∈ ["CALCULATE", "CALCULATETABLE"] then match args with
      | expression :: filters => some (upper, expression, filters)
      | _ => none
    else if upper ∈ ["TOTALYTD", "TOTALQTD", "TOTALMTD"] then match args with
      | expression :: dates :: filters =>
        some (upper, expression, .call (periodOf upper) [dates] :: filters)
      | _ => none
    else none
  | _ => none

/-- The dates of a period are put to the filters like other conditions. -/
theorem applyFilters_period (upper : String) (dates : Expr) (filters : List Expr) :
    applyFilters t (renderExpr t) (.call (periodOf upper) [dates] :: filters) =
      (do
        addCondition t (genericCall t (renderExpr t) (periodOf upper) [dates]) dates.firstColumn?
        applyFilters t (renderExpr t) filters) := by
  have hfirst : Expr.firstColumnOf? [dates] = dates.firstColumn? := by
    simp [Expr.firstColumnOf?]
  have hfilter : applyFilter t (renderExpr t) (.call (periodOf upper) [dates]) =
      addCondition t (renderExpr t (.call (periodOf upper) [dates]))
        (Expr.firstColumnOf? [dates]) := by
    unfold periodOf
    split <;> · unfold applyFilter; rfl
  rw [applyFilters, hfilter, hfirst, renderExpr_eq, Respected.renderWith_period]

theorem renderExpr_eq_subquery {e expression : Expr} {name : String} {filters : List Expr}
    (h : asSubquery e = some (name, expression, filters)) :
    renderExpr t e =
      subquery t name (applyFilters t (renderExpr t) filters) (renderExpr t expression) := by
  cases e with
  | call f args =>
    rw [renderExpr_eq, renderWith, renderCall]
    unfold asSubquery at h
    dsimp only at h
    split at h
    · next hname =>
      rcases args with _ | ⟨first, rest⟩
      · cases h
      · simp only [Option.some.injEq, Prod.mk.injEq] at h
        obtain ⟨rfl, rfl, rfl⟩ := h
        simp only [List.mem_cons, List.not_mem_nil, or_false] at hname
        rcases hname with hname | hname <;>
          · rw [hname]
            show filteredCall t (renderExpr t) f (first :: rest) = _
            rw [filteredCall, hname]
    · split at h
      · next hname =>
        rcases args with _ | ⟨first, _ | ⟨dates, rest⟩⟩
        · cases h
        · cases h
        · simp only [Option.some.injEq, Prod.mk.injEq] at h
          obtain ⟨rfl, rfl, rfl⟩ := h
          rw [applyFilters_period]
          simp only [List.mem_cons, List.not_mem_nil, or_false] at hname
          rcases hname with hname | hname | hname <;>
            · rw [hname]
              show totalToDateCall t (renderExpr t) f (first :: dates :: rest) = _
              rw [totalToDateCall, hname]
      · cases h
  | _ => cases h

/-- The state in which the expression of a subquery is rendered: the filters have been put to those
in force, and the query has read nothing. -/
def inside (t : Target) (filters : List Expr) (s : RenderState) : RenderState :=
  let applied := (applyFilters t (renderExpr t) filters { s with scopes := [] :: s.scopes }).2
  { applied with scopes := [] :: applied.scopes.tail }

/-- The SQL of a subquery by its pattern. -/
def selectText (t : Target) (name text source : String) (filters : FilterContext) :
    Except TemplateError String :=
  let filtered := if filters.whereClause.isEmpty then "" else " WHERE " ++ filters.whereClause
  match t.patterns.get? name with
  | some p => p.render t.dialect [("expression", text), ("from", source), ("where", filtered)]
  | none => .ok ("(SELECT " ++ text ++ " FROM " ++ source ++ filtered ++ ")")

theorem render_of_fillPattern {p : Pattern} {bindings : Bindings} {s s' : RenderState}
    {sql : String} (h : fillPattern t p bindings s = (.ok sql, s')) :
    p.render t.dialect bindings = .ok sql := by
  unfold fillPattern at h
  cases hrender : p.render t.dialect bindings with
  | ok rendered =>
    rw [hrender] at h
    cases h
    rfl
  | error err =>
    rw [hrender] at h
    cases h

/-- The text of a subquery, after its `FROM` clause. -/
theorem run_selectText {name text source : String} {filters : FilterContext} {s s' : RenderState}
    {sql : String}
    (hrun : (match t.patterns.get? name with
      | some p => do
        usePattern t p
        fillPattern t p [("expression", text), ("from", source),
          ("where", if filters.whereClause.isEmpty then "" else " WHERE " ++ filters.whereClause)]
      | none => Pure.pure ("(SELECT " ++ text ++ " FROM " ++ source ++
          (if filters.whereClause.isEmpty then "" else " WHERE " ++ filters.whereClause) ++ ")") :
        Rendering String) s = (.ok sql, s')) :
    Held s s' ∧ selectText t name text source filters = .ok sql := by
  unfold selectText
  cases hget : t.patterns.get? name with
  | none =>
    rw [hget] at hrun
    cases hrun
    exact ⟨.refl _, rfl⟩
  | some p =>
    rw [hget] at hrun
    obtain ⟨_, s₁, hused, hfilled⟩ := exists_of_bind hrun
    refine ⟨((led_usePattern t p).held_of_run hused).trans
      ((led_fillPattern t p _).held_of_run hfilled), ?_⟩
    exact render_of_fillPattern hfilled

/-- What is left of a subquery: its expression alone, if it has no table to read from, or the query
with its `FROM` clause over the tables of the expression and of the filters.  Confidence that was
low inside it, or after the clause, is low at the end, and the tables used inside it are used. -/
theorem exists_source_of_subquery {name : String} {filters : List Expr} {expression : Expr}
    {s s' : RenderState} {sql : String}
    (hrun : subquery t name (applyFilters t (renderExpr t) filters) (renderExpr t expression) s =
      (.ok sql, s')) :
    ∃ text s₂, renderExpr t expression (inside t filters s) = (.ok text, s₂) ∧
      ((inside t filters s).confidence = .low → s'.confidence = .low) ∧
      s₂.tablesUsed ⊆ s'.tablesUsed ∧
      (sql = text ∧ (t.filterTables (inside t filters s).filters).foldl addNew
          (s₂.scopes.headD []) = [] ∨ ∃ source base rest s₃ s₄,
        (t.filterTables (inside t filters s).filters).foldl addNew (s₂.scopes.headD []) =
          base :: rest ∧
        fromClause t (base :: rest) s₃ = (.ok source, s₄) ∧
        (s₄.confidence = .low → s'.confidence = .low) ∧
        selectText t name text source (inside t filters s).filters = .ok sql) := by
  rw [subquery] at hrun
  obtain ⟨⟨text, tables, conditions⟩, s₀, hinside, hrest⟩ := exists_of_bind hrun
  obtain ⟨s₁, s₂, s₃, happlied, hexpressed, hused, htables, rfl, hs₀⟩ :=
    exists_of_underFilters (led_renderExpr t expression) hinside
  have hstate : inside t filters s = { s₁ with scopes := [] :: s₁.scopes.tail } := by
    simp only [inside, happlied]
  have hrecord : Led false ((s₂.scopes.headD []).forM useTable) := led_forM led_useTable
  have hlow : s₁.confidence = .low → s₀.confidence = .low := by
    intro hlow
    have hlow₂ := ((led_renderExpr t expression).held_of_run hexpressed).low hlow
    rw [hs₀]
    exact (hrecord.held_of_run hused).low hlow₂
  have hgrown : s₂.tablesUsed ⊆ s₀.tablesUsed := by
    rw [hs₀]
    exact (hrecord.held_of_run hused).tables.extended.subset
  rw [hstate]
  refine ⟨text, s₂, hexpressed, ?_⟩
  dsimp only at hrest ⊢
  rw [← htables]
  split at hrest
  · next hnone =>
    have hempty : tables = [] := List.isEmpty_iff.mp hnone
    split at hrest
    · obtain ⟨_, s₄, hnamed, hlast⟩ := exists_of_bind hrest
      cases hlast
      have hheld := (led_usePatternNamed t name).held_of_run hnamed
      exact ⟨fun h => hheld.low (hlow h), List.Subset.trans hgrown hheld.tables.extended.subset,
        .inl ⟨rfl, hempty⟩⟩
    · obtain ⟨_, s₄, hnoted, hrest⟩ := exists_of_bind hrest
      obtain ⟨_, s₅, hnamed, hlast⟩ := exists_of_bind hrest
      cases hlast
      have hheld := ((led_note (by decide) _).held_of_run hnoted).trans
        ((led_usePatternNamed t name).held_of_run hnamed)
      exact ⟨fun h => hheld.low (hlow h), List.Subset.trans hgrown hheld.tables.extended.subset,
        .inl ⟨rfl, hempty⟩⟩
  · next hsome =>
    obtain ⟨source, s₄, hfrom, hrest⟩ := exists_of_bind hrest
    obtain ⟨hheld', hselect⟩ := run_selectText hrest
    have hheld := ((led_fromClause t tables).held_of_run hfrom).trans hheld'
    obtain ⟨base, rest, rfl⟩ := List.exists_cons_of_ne_nil (mt List.isEmpty_iff.mpr hsome)
    exact ⟨fun h => hheld.low (hlow h), List.Subset.trans hgrown hheld.tables.extended.subset,
      .inr ⟨source, base, rest, s₀, s₄, rfl, hfrom, hheld'.low, hselect⟩⟩

/-- The subquery speaks of the table: its expression has a column of it, or a condition in force is
filed under a column of it. -/
def SpeaksOf (t : Target) (expression : Expr) (s : RenderState) (tb : Table) : Prop :=
  HasColumn t (expression, s) tb.name ∨
    ∃ entry ∈ s.filters.effective, ∃ column, entry.1 = FilterContext.key tb.name column

/-- **What a subquery reads**: the tables that it speaks of.  The conditions in force are filed. -/
theorem readBy_of_subquery (hschema : t.schema? = some schema) (hnamed : schema.WellNamed)
    (hplain : PlainNames schema) {name : String} {filters : List Expr} {expression : Expr}
    {s s' : RenderState} (hfiled : AllFiled t schema s) {sql : String}
    (hrun : subquery t name (applyFilters t (renderExpr t) filters) (renderExpr t expression) s =
      (.ok sql, s')) :
    ∃ text, (renderExpr t expression (inside t filters s)).1 = .ok text ∧
      (sql = text ∧ (∀ tb ∈ schema.tables, ¬SpeaksOf t expression (inside t filters s) tb) ∨
        ∃ source, selectText t name text source (inside t filters s).filters = .ok sql ∧
        (s'.confidence = .low ∨
          (∀ tb ∈ schema.tables, SpeaksOf t expression (inside t filters s) tb →
            ReadBy schema source tb) ∧
          ∀ entry ∈ (inside t filters s).filters.effective, ∀ condition ∈ entry.2,
            ∃ e rows, Filed t schema entry.1 condition e rows)) := by
  obtain ⟨text, s₂, hexpressed, hlow, -, hrest⟩ := exists_source_of_subquery hrun
  have hlisted : ∀ tb ∈ schema.tables, SpeaksOf t expression (inside t filters s) tb → tb.name ∈
      (t.filterTables (inside t filters s).filters).foldl addNew (s₂.scopes.headD []) := by
    intro tb htb hspeaks
    rw [mem_foldl_addNew]
    rcases hspeaks with hcolumn | ⟨entry, hentry, column, hkey⟩
    · exact .inl (mem_scope_of_hasColumn hschema hcolumn (List.cons_ne_nil _ _) hexpressed)
    · exact .inr (mem_filterTables hschema hnamed hplain hentry htb hkey)
  refine ⟨text, by rw [hexpressed], hrest.imp ?_ ?_⟩
  · rintro ⟨htext, hnone⟩
    refine ⟨htext, fun tb htb hspeaks => ?_⟩
    have hmem := hlisted tb htb hspeaks
    rw [hnone] at hmem
    cases hmem
  rintro ⟨source, base, rest, s₃, s₄, htables, hfrom, hlow', hselect⟩
  rw [htables] at hlisted
  refine ⟨source, hselect, ?_⟩
  by_cases hfinal : s'.confidence = .low
  · exact .inl hfinal
  refine .inr ⟨fun tb htb hspeaks => ?_, fun entry hentry condition hcondition => ?_⟩
  · exact (readBy_of_fromClause hschema hnamed hfrom htb (hlisted tb htb hspeaks)).resolve_right
      (mt hlow' hfinal)
  · have hinside : AllFiled t schema (inside t filters s) :=
      (invariant_allFiled hschema).applyFilters filters (s := { s with scopes := [] :: s.scopes })
        hfiled
    exact hinside.resolve_left (mt hlow hfinal) entry (List.mem_of_mem_filter hentry) condition
      hcondition

end Rendering

/-! ## Queries -/

namespace Engine

open Rendering

/-- **What the subqueries of a query read.**  Let the schema be one that was built and has tables,
every table be found by its name in expressions, and no name of a table be empty or hold a point.
In the course of every query, each call with filters is its expression alone, when it speaks of no
table, or a query with a `FROM` clause.  Unless the confidence of the query is low, the clause reads
every table of which the expression has a column, and every table under which a condition in force
is filed; and each condition in force is filed under its first column. -/
theorem readBy_of_query (e : Engine) {schema : Schema} (hschema : e.schema = some schema)
    (hbuilt : schema.Built) (hnonempty : schema.isEmpty = false)
    (halias : ∀ tb ∈ schema.tables, schema.table? tb.effectiveName = some tb)
    (hplain : PlainNames schema) {dax : String} {q : Query} (hquery : e.query dax = .ok q)
    (hsuccess : q.success = true) {c : Expr} {s : RenderState}
    (hcourse : Course e.target ((parseSource dax).tree, {}) (c, s)) {name : String}
    {expression : Expr} {filters : List Expr}
    (hcall : asSubquery c = some (name, expression, filters)) :
    ∃ sql text, (renderExpr e.target c s).1 = .ok sql ∧
      (renderExpr e.target expression (inside e.target filters s)).1 = .ok text ∧
      (sql = text ∧ (∀ tb ∈ schema.tables,
          ¬SpeaksOf e.target expression (inside e.target filters s) tb) ∨ ∃ source,
        selectText e.target name text source (inside e.target filters s).filters = .ok sql ∧
        (q.confidence = .low ∨
          (∀ tb ∈ schema.tables, SpeaksOf e.target expression (inside e.target filters s) tb →
            ReadBy schema source tb) ∧
          ∀ entry ∈ (inside e.target filters s).filters.effective, ∀ condition ∈ entry.2,
            ∃ f rows, Filed e.target schema entry.1 condition f rows)) := by
  have htarget : e.target.schema? = some schema := by
    simp [Target.schema?, target, hschema, hnonempty]
  obtain ⟨sql₀, s₀, hdraft, hconfidence, -⟩ := exists_state_of_query hquery hsuccess
  obtain ⟨hlater, hok⟩ := hcourse.later (Nat.zero_le _)
  rw [hdraft] at hlater hok
  rcases hrun : renderExpr e.target c s with ⟨err | sql, s'⟩
  · rw [hrun] at hok
    exact nomatch hok rfl
  · rw [hrun] at hlater
    have hfinal : s'.confidence = .low → q.confidence = .low :=
      fun hlow => hconfidence.trans (hlater.low hlow)
    have hfiled : AllFiled e.target schema s :=
      hcourse.invariant (invariant_allFiled htarget) (.inr fun entry hentry => nomatch hentry)
    rw [renderExpr_eq_subquery hcall] at hrun
    obtain ⟨text, htext, hrest⟩ := readBy_of_subquery htarget
      ⟨fun tb htb => hbuilt.byName htb, halias⟩ hplain hfiled hrun
    refine ⟨sql, text, rfl, htext, hrest.imp id ?_⟩
    rintro ⟨source, hselect, hread⟩
    exact ⟨source, hselect, hread.imp hfinal id⟩

/-- For the sales of costly products the table of the products is read. -/
theorem readBy_sales_of_costly_products :
    let e : Engine := { schema := some .retail }
    let c := (parseSource "CALCULATE(SUM(Sales[Amount]), Product[UnitPrice] > 1)").tree
    ∃ name expression filters sql text source,
      asSubquery c = some (name, expression, filters) ∧
      (renderExpr e.target c {}).1 = .ok sql ∧
      selectText e.target name text source (inside e.target filters {}).filters = .ok sql ∧
      ReadBy .retail source Schema.productTable := by
  intro e c
  -- both at once, since the kernel then reads the text only once
  have evaluated :
      ((e.query "CALCULATE(SUM(Sales[Amount]), Product[UnitPrice] > 1)").toOption.map
        fun q => (q.success, q.confidence)) = some (true, .medium) ∧
      ((asSubquery c).map fun call =>
        (inside e.target call.2.2 {}).filters.effective.map (·.1)) =
          some [FilterContext.key "dim_product" "unit_price"] := by
    dsimp only [e, c]
    rw [PatternLibrary.builtin_eq]
    decide +kernel
  obtain ⟨hview, hkeys⟩ := evaluated
  obtain ⟨q, hq, hends⟩ := exists_of_map_toOption hview
  obtain ⟨hs, hmedium⟩ := Prod.mk.inj hends
  obtain ⟨⟨name, expression, filters⟩, hcall, hkeys⟩ := Option.map_eq_some_iff.mp hkeys
  obtain ⟨sql, text, hsql, -, hrest⟩ := readBy_of_query e rfl Schema.built_retail rfl
    (by decide +kernel) (by unfold PlainNames; decide +kernel) hq hs .refl hcall
  have hspeaks : SpeaksOf e.target expression (inside e.target filters {}) Schema.productTable := by
    have hkey : FilterContext.key "dim_product" "unit_price" ∈
        (inside e.target filters {}).filters.effective.map (·.1) := by simp [hkeys]
    obtain ⟨entry, hentry, heq⟩ := List.mem_map.mp hkey
    exact .inr ⟨entry, hentry, "unit_price", heq⟩
  have hproduct : Schema.productTable ∈ Schema.retail.tables := by decide +kernel
  rcases hrest with ⟨-, hnone⟩ | ⟨source, hselect, hlow | ⟨hread, -⟩⟩
  · exact absurd hspeaks (hnone _ hproduct)
  · exact absurd (hmedium.symm.trans hlow) (by decide)
  · exact ⟨name, expression, filters, sql, text, source, hcall, hsql, hselect,
      hread _ hproduct hspeaks⟩

/-- Of a condition on two tables only the first one is read. -/
example :
    let t : Target := ⟨some .retail, .builtin, .snowflake⟩
    let costly : Expr := .binary (.column ⟨some "Sales", "Amount"⟩) .greaterThan
      (.column ⟨some "Product", "UnitPrice"⟩)
    let sales : Expr := .call "CALCULATE" [.call "SUM" [.column ⟨some "Sales", "Amount"⟩], costly]
    (renderExpr t sales {}).1.toOption =
        some "(SELECT SUM(sales.amount) FROM sales WHERE sales.amount > dim_product.unit_price)" ∧
      (renderExpr t sales {}).2.confidence = .medium := by
  dsimp only
  rw [PatternLibrary.builtin_eq]
  decide +kernel

end Engine

end MeasureSql
