import MeasureSql.Proofs.Render.Sources
import MeasureSql.Proofs.Schema.OnTheWay

/-!
# Which tables of a query are listed

A query lists the tables that names were resolved to.  Those that a subquery reads have been
resolved, and so have the tables of its conditions; but the tables that are joined only to reach
another one come out of the relationships, and nobody lists them.

## Main definitions

* `Target.readBack` — the table that a key is read as.
* `Tracked` — the tables that were read and those of the conditions are among the tables used.

## Main results

* `invariant_tracked` — they are, wherever rendering comes to.
* `exists_plan_of_fromClause` — what a `FROM` clause consists of.
* `Engine.listed_of_query` — the tables of each `FROM` clause of a query are listed, unless they
  stand only on the way.
-/

namespace MeasureSql

open Dax

/-- The table that the keys of a table's conditions are read as: that of the part before the first
point. -/
def Target.readBack (t : Target) (table : String) : String :=
  t.keyName (String.ofList ((Text.upper table).toList.takeWhile (· != '.')))

namespace Rendering

variable {t : Target} {schema : Schema}

/-! ## Keys are read back -/

/-- With names that keys can hold, a table is read back as itself. -/
theorem readBack_of_mem (hschema : t.schema? = some schema) (hnamed : schema.WellNamed)
    (hplain : PlainNames schema) {tb : Table} (htb : tb ∈ schema.tables) :
    t.readBack tb.name = tb.name := by
  have hwhole : (Text.upper tb.name).toList.takeWhile (· != '.') = (Text.upper tb.name).toList :=
    takeWhile_eq_self_of_not_mem (hplain tb htb).2
  have htable : schema.table? (Text.upper tb.name) = some tb :=
    (Schema.table?_congr (Text.upper_upper tb.name)).trans (hnamed.byName tb htb)
  simp [Target.readBack, hwhole, Target.keyName, hschema, htable]

/-! ## Tables that are used -/

/-- The table of a column is used. -/
theorem mem_used_resolveColumn (hschema : t.schema? = some schema) (ref : ColumnRef)
    (s : RenderState) {table : String} (h : (columnAt t s.rowTables ref).table = some table) :
    table ∈ (resolveColumn t ref s).2.tablesUsed := by
  obtain ⟨u, -, hleads⟩ := exists_useTable_of_resolveColumn hschema ref s h
  have hused : table ∈ (useTable table u).2.tablesUsed := mem_addNew.mpr (.inr rfl)
  exact hleads.held.tables.extended.subset hused

/-- **What queries read is used**: no move records a table for a query only. -/
theorem Leads.scopes_subset {free loose : Bool} {s s' : RenderState} (h : Leads free loose s s')
    (hs : ∀ scope ∈ s.scopes, scope ⊆ s.tablesUsed) :
    ∀ scope ∈ s'.scopes, scope ⊆ s'.tablesUsed := by
  induction h with
  | trans _ _ ih ih' => exact ih' (ih hs)
  | table table s =>
    rw [run_useTable]
    have hgrown : ∀ scope, scope ⊆ s.tablesUsed → scope ⊆ addNew s.tablesUsed table :=
      fun scope hscope x hx => mem_addNew.mpr (.inl (hscope hx))
    rcases hscopes : s.scopes with _ | ⟨scope, outer⟩
    · simp [readAlso]
    · obtain ⟨hfirst, hrest⟩ := List.forall_mem_cons.mp (hscopes ▸ hs)
      refine List.forall_mem_cons.mpr ⟨?_, fun other hother => hgrown other (hrest other hother)⟩
      intro x hx
      exact (mem_addNew.mp hx).elim (hgrown scope hfirst ·) fun heq => mem_addNew.mpr (.inr heq)
  | row _ ih => exact ih hs
  | stay _ ih => exact ih hs
  | scope _ ih =>
    have hinside := ih (List.forall_mem_cons.mpr ⟨List.nil_subset _, hs⟩)
    exact fun scope hscope => hinside scope (List.mem_of_mem_tail hscope)
  | keep _ ih => exact ih hs
  | _ => exact hs

/-- The key is that of a column of no table, or of a table that is used, which is one of the schema
unless the confidence is low. -/
def KeyedBy (schema : Schema) (s : RenderState) (key : String) : Prop :=
  ∃ table column, key = FilterContext.key table column ∧ (table = "" ∨ table ∈ s.tablesUsed ∧
    ((∃ tb ∈ schema.tables, tb.name = table) ∨ s.confidence = .low))

theorem KeyedBy.held {s s' : RenderState} {key : String} (h : KeyedBy schema s key)
    (hheld : Held s s') : KeyedBy schema s' key := by
  obtain ⟨table, column, heq, hused⟩ := h
  refine ⟨table, column, heq, hused.imp id fun ⟨hmem, hknown⟩ => ?_⟩
  exact ⟨hheld.tables.extended.subset hmem, hknown.imp id hheld.low⟩

/-- Every table that a query around has read is used, and so is every table under whose key a
condition is filed. -/
structure Tracked (schema : Schema) (s : RenderState) : Prop where
  scopes : ∀ scope ∈ s.scopes, scope ⊆ s.tablesUsed
  keys : ∀ entry ∈ s.filters.entries, KeyedBy schema s entry.1

namespace Tracked

variable {s s' : RenderState}

theorem leads {loose : Bool} (h : Tracked schema s) (hleads : Leads false loose s s') :
    Tracked schema s' where
  scopes := hleads.scopes_subset h.scopes
  keys entry hentry := (h.keys entry (hleads.filters_eq ▸ hentry)).held hleads.held

theorem lessen (h : Tracked schema s) {filters : FilterContext}
    (hentries : filters.entries ⊆ s.filters.entries) :
    Tracked schema { s with filters := filters } where
  scopes := h.scopes
  keys entry hentry := h.keys entry (hentries hentry)

/-- Adding a condition under the key of a table that is used. -/
theorem add (h : Tracked schema s) {table column : String} (condition : String)
    (hkey : KeyedBy schema s (FilterContext.key table column)) :
    Tracked schema { s with filters := s.filters.add table column condition } where
  scopes := h.scopes
  keys entry hentry := by
    rcases FilterContext.key_of_mem_addEntry hentry with heq | ⟨old, hold, heq⟩
    · exact heq ▸ hkey
    · exact heq ▸ h.keys old hold

end Tracked

theorem tracked_addCondition (hschema : t.schema? = some schema) (e : Expr) {s : RenderState}
    (h : Tracked schema s) :
    Tracked schema (addCondition t (renderExpr t e) e.firstColumn? s).2 := by
  rcases hrun : renderExpr t e s with ⟨err | condition, s₁⟩
  · have hled := led_renderExpr t e s
    rw [hrun] at hled
    rw [run_addCondition_of_error hrun]
    exact h.leads hled
  · have hled := (led_renderExpr t e).of_ok hrun
    obtain ⟨s₂, hled₂, hresolved, hadded⟩ := run_addCondition_of_ok hrun e.firstColumn?
    rw [hadded]
    refine (h.leads (hled.trans hled₂)).add condition ⟨_, _, rfl, ?_⟩
    cases hfirst : e.firstColumn? with
    | none => exact .inl rfl
    | some ref =>
      cases htable : (columnAt t s₁.rowTables ref).table with
      | none => exact .inl (by simp [filingPlace, htable])
      | some table =>
        have hused := mem_used_resolveColumn hschema ref s₁ htable
        have hrecorded := recorded_resolveColumn hschema ref s₁ htable
        rw [hresolved ref hfirst] at hused hrecorded
        refine .inr ?_
        simpa [filingPlace, htable] using And.intro hused hrecorded.known

/-- **The tables that were read and those of the conditions are used**, wherever rendering comes
to. -/
theorem invariant_tracked (hschema : t.schema? = some schema) : Invariant t (Tracked schema) where
  moves h hs := hs.leads h
  row _ hs := ⟨hs.scopes, hs.keys⟩
  enter hs := ⟨List.forall_mem_cons.mpr ⟨List.nil_subset _, hs.scopes⟩, hs.keys⟩
  leave _ _ hs' := ⟨fun scope hscope => hs'.scopes scope (List.mem_of_mem_tail hscope), hs'.keys⟩
  keep h hs := ⟨h.scopes_subset hs.scopes, fun entry hentry =>
    (hs.keys entry hentry).held { h.held with }⟩
  lessen hf _ hs := hs.lessen (hf.entries _)
  condition e _ hs := tracked_addCondition hschema e hs

/-! ## The clause -/

/-- The tables that can be reached are some of those given. -/
theorem subset_of_reachable {base : String} {tables others : List String} {s s' : RenderState}
    (hrun : reachable schema base tables s = (.ok others, s')) : others ⊆ tables := by
  induction tables generalizing s s' others with
  | nil =>
    cases hrun
    exact List.Subset.refl _
  | cons head tables ih =>
    rw [reachable] at hrun
    split at hrun
    · obtain ⟨rest, s₁, hrest, hlast⟩ := exists_of_bind hrun
      cases hlast
      exact List.cons_subset_cons head (ih hrest)
    · obtain ⟨_, s₁, -, hrest⟩ := exists_of_bind hrun
      exact List.Subset.trans (ih hrest) (List.subset_cons_self head tables)

/-- **What a `FROM` clause consists of**: the first table, and clauses that join others of the list
or tables on the way to them. -/
theorem exists_plan_of_fromClause (hschema : t.schema? = some schema) {base : String}
    {rest : List String} {source : String} {s s' : RenderState}
    (hrun : fromClause t (base :: rest) s = (.ok source, s')) :
    ∃ (others : List String) (plan : List (String × Relationship)), others ⊆ rest ∧
      source = " ".intercalate (t.fromName base ::
        plan.map fun step => schema.clauseFor step.1 step.2) ∧
      ∀ step ∈ plan, schema.tableKey step.1 ∈ (base :: others).map schema.tableKey ∨
        schema.OnTheWay (base :: others) (base :: plan.map (·.1)) step := by
  have halone : t.fromName base = " ".intercalate (t.fromName base ::
      ([] : List (String × Relationship)).map fun step => schema.clauseFor step.1 step.2) := by
    simp
  rw [fromClause] at hrun
  split at hrun
  · cases hrun
    exact ⟨[], [], List.nil_subset _, halone, by simp⟩
  · rw [hschema] at hrun
    obtain ⟨others, s₁, hreach, hrun⟩ := exists_of_bind hrun
    cases hjoin : schema.joinClauses (base :: others) with
    | error e =>
      rw [hjoin] at hrun
      obtain ⟨_, s₂, -, hlast⟩ := exists_of_bind hrun
      cases hlast
      exact ⟨[], [], List.nil_subset _, halone, by simp⟩
    | ok clauses =>
      rw [hjoin] at hrun
      cases hrun
      obtain ⟨plan, rfl, hplan⟩ := Schema.exists_plan_of_joinClauses hjoin
      exact ⟨others, plan, subset_of_reachable hreach, rfl, hplan⟩

/-! ## Subqueries -/

/-- The tables that a subquery joins are used, or read back from the keys of tables that are used;
with names that keys can hold and confidence that is not low, they are used. -/
theorem listed_of_subquery (hschema : t.schema? = some schema) {name : String}
    {filters : List Expr} {expression : Expr} {s s' : RenderState} (htracked : Tracked schema s)
    {sql : String}
    (hrun : subquery t name (applyFilters t (renderExpr t) filters) (renderExpr t expression) s =
      (.ok sql, s')) :
    ∃ text, (renderExpr t expression (inside t filters s)).1 = .ok text ∧
      (sql = text ∨ ∃ (source base : String) (others : List String)
          (plan : List (String × Relationship)),
        selectText t name text source (inside t filters s).filters = .ok sql ∧
        source = " ".intercalate (t.fromName base ::
          plan.map fun step => schema.clauseFor step.1 step.2) ∧
        (∀ n ∈ base :: others, n ∈ s'.tablesUsed ∨ ∃ table ∈ s'.tablesUsed, n = t.readBack table) ∧
        (schema.WellNamed → PlainNames schema → s'.confidence ≠ .low →
          ∀ n ∈ base :: others, n ∈ s'.tablesUsed) ∧
        ∀ step ∈ plan, schema.tableKey step.1 ∈ (base :: others).map schema.tableKey ∨
          schema.OnTheWay (base :: others) (base :: plan.map (·.1)) step) := by
  obtain ⟨text, s₂, hexpressed, hlow, hgrown, hrest⟩ := exists_source_of_subquery hrun
  have hinside : Tracked schema (inside t filters s) := by
    have happlied := (invariant_tracked hschema).applyFilters filters
      (s := { s with scopes := [] :: s.scopes })
      ⟨List.forall_mem_cons.mpr ⟨List.nil_subset _, htracked.scopes⟩, htracked.keys⟩
    exact ⟨List.forall_mem_cons.mpr ⟨List.nil_subset _, fun scope hscope =>
      happlied.scopes scope (List.mem_of_mem_tail hscope)⟩, happlied.keys⟩
  have hleads := led_renderExpr t expression (inside t filters s)
  rw [hexpressed] at hleads
  -- each table is one that the expression read, or is read back from the key of a condition
  have horigin : ∀ n ∈ (t.filterTables (inside t filters s).filters).foldl addNew
      (s₂.scopes.headD []), n ∈ s'.tablesUsed ∨ ∃ table ∈ s'.tablesUsed, n = t.readBack table ∧
        ((∃ tb ∈ schema.tables, tb.name = table) ∨ s'.confidence = .low) := by
    intro n hn
    rcases mem_foldl_addNew.mp hn with hread | hkeyed
    · have hscopes := (hinside.leads hleads).scopes
      rcases hcases : s₂.scopes with _ | ⟨scope, outer⟩
      · simp [hcases] at hread
      · rw [hcases] at hread hscopes
        exact .inl (hgrown (hscopes scope List.mem_cons_self hread))
    · obtain ⟨entry, hentry, found, hfound, rfl⟩ := mem_filterTables_iff.mp hkeyed
      obtain ⟨table, column, heq, hused⟩ := hinside.keys entry (List.mem_of_mem_filter hentry)
      rw [heq] at hfound
      obtain ⟨hne, rfl⟩ := keyTable?_of_key hfound
      obtain ⟨hmem, hknown⟩ := hused.resolve_left hne
      exact .inr ⟨table, hgrown (hleads.held.tables.extended.subset hmem), rfl,
        hknown.imp id hlow⟩
  refine ⟨text, by rw [hexpressed], ?_⟩
  rcases hrest with ⟨htext, -⟩ | ⟨source, base, rest, s₃, s₄, htables, hfrom, -, hselect⟩
  · exact .inl htext
  rw [htables] at horigin
  obtain ⟨others, plan, hothers, hsource, hplan⟩ := exists_plan_of_fromClause hschema hfrom
  have hall : base :: others ⊆ base :: rest := List.cons_subset_cons base hothers
  refine .inr ⟨source, base, others, plan, hselect, hsource, fun n hn => ?_, ?_, hplan⟩
  · refine (horigin n (hall hn)).imp id ?_
    rintro ⟨table, hmem, heq, -⟩
    exact ⟨table, hmem, heq⟩
  · intro hnamed hplain hhigh n hn
    rcases horigin n (hall hn) with hmem | ⟨table, hmem, rfl, hknown⟩
    · exact hmem
    · obtain ⟨tb, htb, rfl⟩ := hknown.resolve_right hhigh
      rwa [readBack_of_mem hschema hnamed hplain htb]

/-! ## Tables used by a part -/

/-- The computations do the same, or the tables are used after the first. -/
def UsedOrAlike (tables : List String) (α : Type) (m m' : Rendering α) : Prop :=
  Led true m ∧ ∀ s, m s = m' s ∨ tables ⊆ (m s).2.tablesUsed

section Used

variable {tables : List String} {sub : Expr → Rendering String}

theorem UsedOrAlike.of_led {α : Type} {m : Rendering α} (h : Led true m) :
    UsedOrAlike tables α m m :=
  ⟨h, fun _ => .inl rfl⟩

theorem UsedOrAlike.bind {α β : Type} {m m' : Rendering α} {f f' : α → Rendering β}
    (hm : UsedOrAlike tables α m m') (hf : ∀ a, UsedOrAlike tables β (f a) (f' a)) :
    UsedOrAlike tables β (m >>= f) (m' >>= f') := by
  refine ⟨Led.bind hm.1 fun a => (hf a).1, fun s => ?_⟩
  rw [run_bind, run_bind]
  rcases hm.2 s with hsame | hused
  · rw [← hsame]
    rcases m s with ⟨err | a, s'⟩
    · exact .inl rfl
    · exact (hf a).2 s'
  · right
    generalize m s = run at hused
    rcases run with ⟨err | a, s'⟩
    · exact hused
    · exact List.Subset.trans hused ((hf a).1 s').held.tables.extended.subset

theorem respected_usedOrAlike
    (hsub : ∀ e, UsedOrAlike tables String (renderExpr t e) (sub e)) :
    Respected t (renderExpr t) sub (UsedOrAlike tables) where
  part := hsub
  aside hled _ := .of_led hled.relax
  bind := .bind
  lessen _ := .of_led (led_changeFilters _)
  condition e _ h := by
    rw [addCondition_eq, addCondition_eq]
    exact h.bind fun condition => .of_led (led_fileCondition e.firstColumn? condition)
  withRow row act act' hact := by
    refine ⟨hact.1.withRow row, fun s => ?_⟩
    cases row with
    | none =>
      rw [withRow_none, withRow_none]
      exact hact.2 s
    | some name =>
      rw [run_withRow, run_withRow]
      exact (hact.2 { s with rowTables := s.rowTables ++ [name] }).imp
        (fun hsame => by rw [hsame]) id
  alongRow row act act' hact := by
    refine ⟨hact.1.alongRow row, fun s => ?_⟩
    cases row with
    | none =>
      rw [alongRow_none, alongRow_none]
      exact hact.2 s
    | some name =>
      rw [run_alongRow, run_alongRow]
      rcases hact.2 { s with rowTables := s.rowTables ++ [name] } with hsame | hused
      · exact .inl (by rw [hsame])
      · generalize act { s with rowTables := s.rowTables ++ [name] } = run at hused
        rcases run with ⟨err | a, s'⟩ <;> exact .inr hused
  inTurn {_ _ m m' n n'} hm hn := by
    refine ⟨hm.1.inTurn hn.1, fun s => ?_⟩
    rw [run_inTurn, run_inTurn]
    rcases hm.2 s with hsame | hused
    · rw [← hsame]
      exact (hn.2 (m s).2).imp (fun hsame' => by rw [hsame']) id
    · exact .inr (List.Subset.trans hused (hn.1 (m s).2).held.tables.extended.subset)
  withScope hact := by
    refine ⟨hact.1.withScope, fun s => ?_⟩
    refine (hact.2 { s with scopes := [] :: s.scopes }).imp (fun hsame => ?_) id
    simp only [withScope, hsame]
  keepingFilters hact := by
    refine ⟨hact.1.keepingFilters.relax, fun s => ?_⟩
    refine (hact.2 s).imp (fun hsame => ?_) id
    simp only [keepingFilters, hsame]

end Used

/-- **The tables that a part uses are used at the end of the whole.** -/
theorem ComesTo.used {x y : Expr × RenderState} (h : ComesTo t x y) :
    (renderExpr t y.1 y.2).2.tablesUsed ⊆ (renderExpr t x.1 x.2).2.tablesUsed := by
  obtain ⟨sub, hsub, hdiffers⟩ := h
  have hparts : ∀ e, UsedOrAlike (renderExpr t y.1 y.2).2.tablesUsed String (renderExpr t e)
      (sub e) := fun e => by
    refine ⟨(led_renderExpr t e).relax, fun s => ?_⟩
    by_cases heq : (e, s) = y
    · subst heq
      exact .inr (List.Subset.refl _)
    · exact .inl (hsub e s heq).symm
  rw [renderExpr_eq t x.1] at hdiffers ⊢
  exact (((respected_usedOrAlike hparts).renderWith x.1).2 x.2).resolve_left fun hsame =>
    hdiffers (congrArg Prod.fst hsame.symm)

theorem Course.used {x y : Expr × RenderState} (h : Course t x y) :
    (renderExpr t y.1 y.2).2.tablesUsed ⊆ (renderExpr t x.1 x.2).2.tablesUsed := by
  induction h with
  | refl => exact List.Subset.refl _
  | tail _ hcomes ih => exact List.Subset.trans hcomes.used ih

end Rendering

/-! ## Queries -/

namespace Engine

open Rendering

/-- A query lists the tables that its rendering used, whether or not a helper was asked. -/
theorem exists_used_of_query {e : Engine} {dax : String} {q : Query} (hq : e.query dax = .ok q)
    (hs : q.success = true) :
    ∃ sql s, renderExpr e.target (parseSource dax).tree {} = (.ok sql, s) ∧
      q.confidence = s.confidence ∧ q.tablesUsed = s.tablesUsed := by
  obtain ⟨q₀, hdraft, rfl | ⟨-, answer, rfl⟩⟩ := exists_draft_of_query hq
  · obtain ⟨sql, s, hrun, rfl⟩ := exists_state_of_draft hdraft hs
    exact ⟨sql, s, hrun, rfl, rfl⟩
  · obtain ⟨hconf, hsuccess, -⟩ := exists_warning_enhance q₀ answer
    obtain ⟨sql, s, hrun, rfl⟩ := exists_state_of_draft hdraft (hsuccess ▸ hs)
    refine ⟨sql, s, hrun, hconf, ?_⟩
    unfold Query.enhance
    split <;> rfl

/-- **Which tables of the `FROM` clauses are listed.**  In the course of every query over a schema
with tables, each call with filters is its expression alone or a query with a `FROM` clause, which
consists of a first table and clauses that join others.  The first table and those that were to be
joined to it are listed, or are read back from the keys of tables that are listed; where names can
stand in keys and the confidence of the query is not low, they are listed.  Every clause joins one
of them, or a table on the way between them. -/
theorem listed_of_query (e : Engine) {schema : Schema} (hschema : e.schema = some schema)
    (hnonempty : schema.isEmpty = false) {dax : String} {q : Query} (hquery : e.query dax = .ok q)
    (hsuccess : q.success = true) {c : Expr} {s : RenderState}
    (hcourse : Course e.target ((parseSource dax).tree, {}) (c, s)) {name : String}
    {expression : Expr} {filters : List Expr}
    (hcall : asSubquery c = some (name, expression, filters)) :
    ∃ sql text, (renderExpr e.target c s).1 = .ok sql ∧
      (renderExpr e.target expression (inside e.target filters s)).1 = .ok text ∧
      (sql = text ∨ ∃ (source base : String) (others : List String)
          (plan : List (String × Relationship)),
        selectText e.target name text source (inside e.target filters s).filters = .ok sql ∧
        source = " ".intercalate (e.target.fromName base ::
          plan.map fun step => schema.clauseFor step.1 step.2) ∧
        (∀ n ∈ base :: others,
          n ∈ q.tablesUsed ∨ ∃ table ∈ q.tablesUsed, n = e.target.readBack table) ∧
        (schema.WellNamed → PlainNames schema → q.confidence ≠ .low →
          ∀ n ∈ base :: others, n ∈ q.tablesUsed) ∧
        ∀ step ∈ plan, schema.tableKey step.1 ∈ (base :: others).map schema.tableKey ∨
          schema.OnTheWay (base :: others) (base :: plan.map (·.1)) step) := by
  have htarget : e.target.schema? = some schema := by
    simp [Target.schema?, target, hschema, hnonempty]
  obtain ⟨sql₀, s₀, hdraft, hconfidence, hused⟩ := exists_used_of_query hquery hsuccess
  obtain ⟨hlater, hok⟩ := hcourse.later (Nat.zero_le _)
  have hgrown := hcourse.used
  rw [hdraft] at hlater hok hgrown
  rcases hrun : renderExpr e.target c s with ⟨err | sql, s'⟩
  · rw [hrun] at hok
    cases hok rfl
  · rw [hrun] at hlater hgrown
    have hfinal : s'.confidence = .low → q.confidence = .low :=
      fun hlow => hconfidence.trans (hlater.low hlow)
    have htracked : Tracked schema s :=
      hcourse.invariant (invariant_tracked htarget) ⟨by simp, by simp⟩
    rw [renderExpr_eq_subquery hcall] at hrun
    obtain ⟨text, htext, hrest⟩ := listed_of_subquery htarget htracked hrun
    refine ⟨sql, text, rfl, htext, hrest.imp id ?_⟩
    rintro ⟨source, base, others, plan, hselect, hsource, hread, hlisted, hplan⟩
    rw [hused]
    refine ⟨source, base, others, plan, hselect, hsource, fun n hn => ?_, ?_, hplan⟩
    · refine (hread n hn).imp (fun hmem => hgrown hmem) ?_
      rintro ⟨table, hmem, heq⟩
      exact ⟨table, hgrown hmem, heq⟩
    · intro hnamed hplain hhigh n hn
      exact hgrown (hlisted hnamed hplain (mt hfinal hhigh) n hn)

/-- For the prices of the products that stores in the west sell the sales are joined, since they are
on the way, and are not listed. -/
theorem listed_prices_in_west :
    let e : Engine := { schema := some .retail }
    let c := (parseSource "CALCULATE(SUM(Product[UnitPrice]), Store[Region] = \"West\")").tree
    ∃ (source base : String) (others : List String) (plan : List (String × Relationship)),
      (renderExpr e.target c {}).1 = .ok ("(SELECT SUM(dim_product.unit_price) FROM dim_product " ++
        "JOIN sales ON sales.product_key = dim_product.product_key JOIN dim_store ON " ++
        "sales.store_key = dim_store.store_key WHERE dim_store.region = 'West')") ∧
      source = " ".intercalate (e.target.fromName base ::
        plan.map fun step => Schema.retail.clauseFor step.1 step.2) ∧
      (∀ n ∈ base :: others, n ∈ ["dim_store", "dim_product"]) ∧
      ∀ step ∈ plan, Schema.retail.tableKey step.1 ∈ (base :: others).map Schema.retail.tableKey ∨
        Schema.retail.OnTheWay (base :: others) (base :: plan.map (·.1)) step := by
  intro e c
  -- both at once, since the kernel then reads the text and renders its sum only once
  have evaluated :
      ((e.query "CALCULATE(SUM(Product[UnitPrice]), Store[Region] = \"West\")").toOption.map
        fun q => (q.success, q.confidence, q.tablesUsed, q.enhancedBy, q.sql)) =
        some (true, .medium, ["dim_store", "dim_product"], none,
          "(SELECT SUM(dim_product.unit_price) FROM dim_product " ++
            "JOIN sales ON sales.product_key = dim_product.product_key JOIN dim_store ON " ++
            "sales.store_key = dim_store.store_key WHERE dim_store.region = 'West')") ∧
      ((asSubquery c).map fun call =>
        (renderExpr e.target call.2.1 (inside e.target call.2.2 {})).1.toOption) =
          some (some "SUM(dim_product.unit_price)") := by
    dsimp only [e, c]
    rw [PatternLibrary.builtin_eq]
    decide +kernel
  obtain ⟨hview, htexts⟩ := evaluated
  obtain ⟨q, hq, hends⟩ := exists_of_map_toOption hview
  simp only [Prod.mk.injEq] at hends
  obtain ⟨hs, hmedium, hused, hown, hwhole⟩ := hends
  have hdrafted := renderExpr_of_query hq hs hown
  rw [hwhole] at hdrafted
  obtain ⟨⟨name, expression, filters⟩, hcall, htexts⟩ := Option.map_eq_some_iff.mp htexts
  obtain ⟨sql, text, hsql, htext, hrest⟩ := listed_of_query e rfl rfl hq hs .refl hcall
  rcases hrest with rfl | ⟨source, base, others, plan, -, hsource, -, hlisted, hplan⟩
  · rw [htext] at htexts
    have hshort : sql = "SUM(dim_product.unit_price)" := Option.some.inj htexts
    have hsame := Except.ok.inj (hsql.symm.trans hdrafted)
    rw [hshort] at hsame
    exact absurd hsame (by decide +kernel)
  · refine ⟨source, base, others, plan, hdrafted, hsource, ?_, hplan⟩
    rw [← hused]
    exact hlisted ⟨fun tb htb => Schema.built_retail.byName htb, by decide +kernel⟩
      (by unfold PlainNames; decide +kernel) (by rw [hmedium]; decide)

end Engine

end MeasureSql
