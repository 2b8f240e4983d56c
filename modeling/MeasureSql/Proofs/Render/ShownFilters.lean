import MeasureSql.Proofs.FilterContext
import MeasureSql.Proofs.Render.Query
import MeasureSql.Proofs.Render.Shown

/-!
# What the filters of a call show

A filter is rendered into the conditions in force, which become the `WHERE` clause of the query
around the expression.  A condition on rows among the filters occurs there, unless another filter of
the same call takes it away.  With the rules for the other calls this says which conditions on rows
occur in the SQL of a whole query.

## Main definitions

* `filingPlace` — the table and the column that a condition is put under.
* `Adds`, `Applies` — a change of the filters after which some conditions are in force.

## Main results

* `run_addCondition_of_ok` — what putting a condition to the filters does.
* `ensures_renderExpr` — what is to be seen of an expression is seen.
* `Engine.shown_of_query` — a query without warnings shows its conditions on rows.
-/

namespace MeasureSql

open Dax Text

namespace Rendering

variable {α β : Type} {t : Target} {rows : List String} {n : Nat}

/-! ### Filters -/

/-- The computation keeps the conditions in force, and the conditions on rows are seen in those that
are in force afterwards. -/
def Adds (t : Target) (rows : List String) (m : Rendering α) (xs : List RowPredicate) : Prop :=
  ∀ s a s', m s = (.ok a, s') → Clean rows s' → Clean rows s ∧
    (∀ c ∈ s.filters.inForce, c ∈ s'.filters.inForce) ∧
    ∀ x ∈ xs, ∃ c ∈ s'.filters.inForce, Rendered t x c

namespace Adds

variable {xs ys : List RowPredicate}

/-- What leaves the filters as they were adds nothing. -/
theorem of_led {m : Rendering α} (h : Led false m) : Adds t rows m [] := by
  intro s a s' hrun hclean
  have hled := h.of_ok hrun
  obtain ⟨hs, -⟩ := Ensures.of_led h s a s' hrun hclean
  refine ⟨hs, fun c hc => ?_, by simp⟩
  rwa [hled.filters_eq]

/-- **A sequence adds what both of its parts add.** -/
theorem bind {m : Rendering α} {f : α → Rendering β} (hm : Adds t rows m xs)
    (hf : ∀ a, Adds t rows (f a) ys) : Adds t rows (m >>= f) (xs ++ ys) := by
  intro s b s' hrun hclean
  obtain ⟨a, s₁, hmid, hrun⟩ := exists_of_bind hrun
  obtain ⟨hclean₁, hkeep₁, hys⟩ := hf a s₁ b s' hrun hclean
  obtain ⟨hclean₀, hkeep₀, hxs⟩ := hm s a s₁ hmid hclean₁
  refine ⟨hclean₀, fun c hc => hkeep₁ c (hkeep₀ c hc), fun x hx => ?_⟩
  rcases List.mem_append.mp hx with hx | hx
  · obtain ⟨c, hc, hrendered⟩ := hxs x hx
    exact ⟨c, hkeep₁ c hc, hrendered⟩
  · exact hys x hx

/-- What comes after a part that leaves the filters as they were adds what it adds. -/
theorem after {m : Rendering α} {f : α → Rendering β} (hm : Led false m)
    (hf : ∀ a, Adds t rows (f a) xs) : Adds t rows (m >>= f) xs :=
  bind (of_led hm) hf

/-- What comes after a value may be judged by what is known of the value. -/
theorem after_value {m : Rendering α} {f : α → Rendering β} {mid : α → Prop} (hled : Led false m)
    (hm : Ensures (Clean rows) m mid) (hfled : ∀ a, Led true (f a))
    (hf : ∀ a, mid a → Adds t rows (f a) xs) : Adds t rows (m >>= f) xs := by
  intro s b s' hrun hclean
  obtain ⟨a, s₁, hmid, hrun⟩ := exists_of_bind hrun
  obtain ⟨hclean₁, -⟩ := Ensures.of_led (hfled a) s₁ b s' hrun hclean
  obtain ⟨hclean₀, ha⟩ := hm s a s₁ hmid hclean₁
  obtain ⟨-, hkeep, hxs⟩ := hf a ha s₁ b s' hrun hclean
  have hfilters : s₁.filters = s.filters := (hled.of_ok hmid).filters_eq
  rw [hfilters] at hkeep
  exact ⟨hclean₀, hkeep, hxs⟩

theorem withRow (row : Option String) {act : Rendering α} (hled : Led true act)
    (h : Adds t (rows ++ row.toList) act xs) : Adds t rows (Rendering.withRow row act) xs := by
  cases row with
  | none => rwa [withRow_none, ← List.append_nil rows]
  | some name =>
    intro s a s' hrun hclean
    obtain ⟨s₁, hact, rfl, hclean₁⟩ := clean_of_withRow hled hrun hclean
    obtain ⟨⟨hwarn, -⟩, hkeep, hxs⟩ := h _ a s₁ hact hclean₁
    exact ⟨⟨hwarn, hclean.2⟩, hkeep, hxs⟩

end Adds

theorem adds_changeFilters {xs : List RowPredicate} {sql : String} (h : AllRendered t xs sql)
    (table column : String) :
    Adds t rows (changeFilters fun f => f.add table column sql) xs := by
  intro s a s' hrun hclean
  cases hrun
  refine ⟨hclean, fun c hc => FilterContext.mem_inForce_add_of_mem hc, fun x hx => ?_⟩
  exact ⟨sql, FilterContext.mem_inForce_add _ _ _ _, h x hx⟩

/-- The table and the column under whose key a condition is put. -/
def filingPlace (t : Target) (rows : List String) (column : Option ColumnRef) (condition : String) :
    String × String :=
  match column with
  | some ref => ((columnAt t rows ref).table.getD "", (columnAt t rows ref).column)
  | none => ("", condition)

/-- **What putting a condition to the filters does**, once its SQL is there: the column is resolved,
and the condition comes under the key of the column. -/
theorem run_addCondition_of_ok {m : Rendering String} {s s₁ : RenderState} {condition : String}
    (hrun : m s = (.ok condition, s₁)) (column : Option ColumnRef) :
    ∃ s₂, Leads false false s₁ s₂ ∧
      (∀ ref, column = some ref →
        resolveColumn t ref s₁ = (.ok (columnAt t s₁.rowTables ref), s₂)) ∧
      addCondition t m column s = (.ok (), { s₂ with
        filters := s₂.filters.add (filingPlace t s₁.rowTables column condition).1
          (filingPlace t s₁.rowTables column condition).2 condition }) := by
  rw [addCondition, run_bind, hrun]
  dsimp only
  cases column with
  | none =>
    refine ⟨s₁, .refl s₁, fun ref heq => ?_, rfl⟩
    cases heq
  | some ref =>
    obtain ⟨s₂, hresolved, -⟩ := gives_resolveColumn (t := t) ref s₁ rfl
    refine ⟨s₂, (led_resolveColumn t ref).of_ok hresolved, fun ref' heq => ?_, ?_⟩
    · cases heq
      exact hresolved
    · simp only [run_bind, hresolved]
      rfl

theorem run_addCondition_of_error {m : Rendering String} {s s₁ : RenderState} {err : TemplateError}
    (hrun : m s = (.error err, s₁)) (column : Option ColumnRef) :
    addCondition t m column s = (.error err, s₁) := by
  rw [addCondition, run_bind, hrun]

/-- **A condition that is put to the filters** shows what is to be seen of it. -/
theorem adds_addCondition {condition : Rendering String} (hled : Led false condition)
    {xs : List RowPredicate} (h : Ensures (Clean rows) condition (AllRendered t xs))
    (column : Option ColumnRef) : Adds t rows (addCondition t condition column) xs := by
  refine Adds.after_value hled h (led_fileCondition column) fun sql hsql => ?_
  cases column with
  | none => exact adds_changeFilters hsql _ _
  | some ref => exact Adds.after (led_resolveColumn t ref) fun _ => adds_changeFilters hsql _ _

/-- A filter that is a condition of its own. -/
theorem adds_condition (hsub : ShowsBelow t n) {e : Expr} (h : e.height ≤ n)
    (hshown : shownFilter t rows e = shown t rows e) (column : Option ColumnRef) :
    Adds t rows (addCondition t (renderExpr t e) column) (shownFilter t rows e) := by
  rw [hshown]
  exact adds_addCondition (led_renderExpr t e) (hsub e h rows) column

/-- A filtered table among the filters. -/
theorem adds_filter (hsub : ShowsBelow t n) {table predicate : Expr} (htable : table.height ≤ n)
    (hpredicate : predicate.height ≤ n) :
    Adds t rows (do
      usePatternNamed t "FILTER"
      let (_, row) ← tableArgument t (renderExpr t) table
      withRow row (addCondition t (renderExpr t predicate) predicate.firstColumn?))
      (shownGuard t rows [table, predicate]) := by
  have hled : ∀ row, Led true (withRow row
      (addCondition t (renderExpr t predicate) predicate.firstColumn?)) := fun row =>
    Led.withRow row (led_addCondition (led_renderExpr t predicate).relax _)
  refine Adds.after (led_usePatternNamed t _) fun _ => ?_
  refine Adds.after_value (led_tableArgument (led_renderExpr t) table)
    (ensures_tableArgument hsub htable) (fun a => hled a.2) fun a ha => ?_
  rw [shownGuard, ← ha.1]
  exact Adds.withRow a.2 (led_addCondition (led_renderExpr t predicate).relax _)
    (adds_addCondition (led_renderExpr t predicate) (ensures_condition hsub hpredicate _) _)

mutual

/-- **A filter that takes none away** shows what is to be seen of it. -/
theorem adds_applyFilter (hsub : ShowsBelow t n) :
    ∀ e : Expr, e.height ≤ n → e.nodes.any takesAway = false → ∀ rows,
      Adds t rows (applyFilter t (renderExpr t) e) (shownFilter t rows e)
  | .call name args, h, hkeeps, rows => by
    have hstays : takesAway (.call name args) = false ∧
        (Expr.nodesAll args).any takesAway = false := by
      rw [Expr.nodes, List.any_cons, Bool.or_eq_false_iff] at hkeeps
      exact hkeeps
    have hcall : Text.asciiUpper name ≠ "KEEPFILTERS" →
        (isFilter name && args.length == 2) = false →
        Adds t rows (addCondition t (renderExpr t (.call name args)) (Expr.firstColumnOf? args))
          (shownFilter t rows (.call name args)) := by
      intro hname hfilter
      refine adds_condition hsub h ?_ _
      rw [shownFilter, if_neg hname, hfilter, shown]
      rfl
    have hargs : Expr.heightAll args ≤ n := by
      simp only [Expr.height] at h
      omega
    unfold applyFilter
    split
    · next hname => simp [takesAway, hname] at hstays
    · next hname => simp [takesAway, hname] at hstays
    · next hname => simp [takesAway, hname] at hstays
    · next hname =>
      rw [shownFilter, if_pos hname]
      exact Adds.after (led_usePatternNamed t _) fun _ =>
        adds_applyFilters hsub args hargs hstays.2 rows
    · next hname =>
      split
      · next table predicate _ =>
        simp only [Expr.heightAll] at hargs
        have hfilter : isFilter name = true := by simp [isFilter, hname]
        rw [shownFilter, if_neg (by simp [hname]), if_pos (by simp [hfilter])]
        exact adds_filter hsub (by omega) (by omega)
      · next hother =>
        refine hcall (by simp [hname]) ?_
        rcases args with _ | ⟨table, _ | ⟨predicate, _ | ⟨third, rest⟩⟩⟩
        · simp
        · simp
        · exact absurd rfl (hother table predicate)
        · simp
    · next hkeep hfilter =>
      have hno : isFilter name = false := by simpa [isFilter] using hfilter
      exact hcall hkeep (by rw [hno]; rfl)
  | .literal _, h, _, rows | .column _, h, _, rows | .table _, h, _, rows
  | .binary _ _ _, h, _, rows | .unary _ _, h, _, rows | .variable _ _, h, _, rows
  | .cond _ _ _, h, _, rows | .measure _ _ _ _, h, _, rows => by
    unfold applyFilter
    exact adds_condition hsub h (by simp only [shownFilter, shown]) _

theorem adds_applyFilters (hsub : ShowsBelow t n) :
    ∀ es : List Expr, Expr.heightAll es ≤ n → (Expr.nodesAll es).any takesAway = false → ∀ rows,
      Adds t rows (applyFilters t (renderExpr t) es) (shownFilters t rows es)
  | [], _, _, rows => Adds.of_led (.pure _)
  | e :: es, h, hkeeps, rows => by
    simp only [Expr.heightAll] at h
    rw [Expr.nodesAll, List.any_append, Bool.or_eq_false_iff] at hkeeps
    simp only [applyFilters, shownFilters]
    exact Adds.bind (adds_applyFilter hsub e (by omega) hkeeps.1 rows) fun _ =>
      adds_applyFilters hsub es (by omega) hkeeps.2 rows

end

/-! ### Subqueries -/

/-- What a scope leaves behind it is what was left behind in it. -/
theorem exists_of_withScope {act : Rendering α} {s s' : RenderState} {a : α} {used : List String}
    (h : withScope act s = (.ok (a, used), s')) :
    ∃ s₁, act { s with scopes := [] :: s.scopes } = (.ok a, s₁) ∧ used = s₁.scopes.headD [] ∧
      s' = { s₁ with scopes := s₁.scopes.tail } := by
  rcases hact : act { s with scopes := [] :: s.scopes } with ⟨err | b, s₁⟩
  · simp only [withScope, hact, Except.map] at h
    cases h
  · simp only [withScope, hact, Except.map] at h
    cases h
    exact ⟨s₁, rfl, rfl, rfl⟩

/-- The conditions on rows are seen in the conditions in force afterwards. -/
def Applies (t : Target) (rows : List String) (m : Rendering Unit) (xs : List RowPredicate) :
    Prop :=
  ∀ s a s', m s = (.ok a, s') → Clean rows s' → Clean rows s ∧
    ∀ x ∈ xs, ∃ c ∈ s'.filters.inForce, Rendered t x c

theorem Adds.applies {m : Rendering Unit} {xs : List RowPredicate} (h : Adds t rows m xs) :
    Applies t rows m xs := by
  intro s a s' hrun hclean
  obtain ⟨hs, -, hxs⟩ := h s a s' hrun hclean
  exact ⟨hs, hxs⟩

/-- Filters that may take others away show nothing. -/
theorem Applies.of_led {m : Rendering Unit} (h : Led true m) : Applies t rows m [] := by
  intro s a s' hrun hclean
  exact ⟨(Ensures.of_led h s a s' hrun hclean).1, by simp⟩

/-- The inside of a subquery: the filters are changed, the expression is rendered under them, the
tables are those that it read and those of the filters, and the conditions are those in force. -/
theorem exists_of_underFilters {apply : Rendering Unit} {expression : Rendering String}
    (hled : Led false expression) {s s' : RenderState} {sql conditions : String}
    {tables : List String}
    (h : (keepingFilters do
      let _ ← withScope apply
      let (sql, used) ← withScope expression
      used.forM useTable
      let filters := (← get).filters
      Pure.pure (sql, (t.filterTables filters).foldl addNew used, filters.whereClause)) s =
        (.ok (sql, tables, conditions), s')) :
    ∃ s₁ s₂ s₃ : RenderState,
      apply { s with scopes := [] :: s.scopes } = (.ok (), s₁) ∧
      expression { s₁ with scopes := [] :: s₁.scopes.tail } = (.ok sql, s₂) ∧
      (s₂.scopes.headD []).forM useTable { s₂ with scopes := s₂.scopes.tail } = (.ok (), s₃) ∧
      tables = (t.filterTables s₁.filters).foldl addNew (s₂.scopes.headD []) ∧
      conditions = s₁.filters.whereClause ∧ s' = { s₃ with filters := s.filters } := by
  unfold keepingFilters at h
  split at h
  next result s₃ hinside =>
  cases h
  obtain ⟨⟨⟨⟩, scope⟩, s₁, happlied, hrest⟩ := exists_of_bind hinside
  obtain ⟨⟨sql, used⟩, s₂, hexpressed, hrest⟩ := exists_of_bind hrest
  obtain ⟨⟨⟩, s₃', hused, hlast⟩ := exists_of_bind hrest
  cases hlast
  obtain ⟨t₁, hact₁, -, rfl⟩ := exists_of_withScope happlied
  obtain ⟨t₂, hact₂, rfl, rfl⟩ := exists_of_withScope hexpressed
  have htables : Led false ((t₂.scopes.headD []).forM useTable) := led_forM led_useTable
  have hstep := htables { t₂ with scopes := t₂.scopes.tail }
  rw [hused] at hstep
  have hexpr := hled { t₁ with scopes := [] :: t₁.scopes.tail }
  rw [hact₂] at hexpr
  have hfilters : s₃.filters = t₁.filters := hstep.filters_eq.trans hexpr.filters_eq
  exact ⟨t₁, t₂, s₃, hact₁, hact₂, hused, by rw [hfilters], by rw [hfilters], rfl⟩

/-- The inside of a subquery shows what its expression shows and, in its conditions, the filters. -/
theorem ensures_underFilters {apply : Rendering Unit} {expression : Rendering String}
    {xs ys : List RowPredicate} (happly : Applies t rows apply xs) (hled : Led false expression)
    (hexpression : Ensures (Clean rows) expression (AllRendered t ys)) :
    Ensures (Clean rows) (keepingFilters do
      let _ ← withScope apply
      let (sql, used) ← withScope expression
      used.forM useTable
      let filters := (← get).filters
      Pure.pure (sql, (t.filterTables filters).foldl addNew used, filters.whereClause)) fun a =>
        AllRendered t ys a.1 ∧ AllRendered t xs a.2.2 := by
  rintro s ⟨sql, tables, conditions⟩ s' hrun hclean
  obtain ⟨s₁, s₂, s₃, happlied, hexpressed, hused, -, rfl, rfl⟩ :=
    exists_of_underFilters hled hrun
  -- Looking back from the end, every state on the way is clean.
  have htables : Led false ((s₂.scopes.headD []).forM useTable) := led_forM led_useTable
  have hclean₂ := (Ensures.of_led htables _ () s₃ hused hclean).1
  obtain ⟨hclean₁, hsql⟩ := hexpression _ sql s₂ hexpressed hclean₂
  obtain ⟨hclean₀, hxs⟩ := happly _ () s₁ happlied hclean₁
  refine ⟨hclean₀, hsql, fun x hx => ?_⟩
  obtain ⟨c, hc, hrendered⟩ := hxs x hx
  rw [FilterContext.whereClause_eq]
  exact hrendered.within (within_intercalate " AND " hc)

/-- **A subquery** shows the filters that it applies, and its expression unless its template has no
place for it. -/
theorem ensures_subquery (ht : t.patterns = .builtin) {word : String}
    (hword : word ∈ Catalog.subqueries) {apply : Rendering Unit} {expression : Rendering String}
    {xs ys : List RowPredicate} (happly : Applies t rows apply xs) (hled : Led false expression)
    (hexpression : Ensures (Clean rows) expression (AllRendered t ys)) :
    Ensures (Clean rows) (subquery t word apply expression) fun sql =>
      AllRendered t xs sql ∧ (word ≠ "CALCULATETABLE" → AllRendered t ys sql) := by
  obtain ⟨p, hp, hget, hname⟩ := exists_get?_of_mem_subqueries hword
  rw [subquery]
  refine (ensures_underFilters happly hled hexpression).bind fun a => ?_
  obtain ⟨sql, tables, conditions⟩ := a
  dsimp only
  split
  · -- Without tables there are no filters, or they are warned of.
    split
    · next hempty =>
      refine Ensures.after (led_usePatternNamed t _) fun _ => .pure fun h => ⟨?_, fun _ => h.1⟩
      intro x hx
      have hnone : conditions = "" := by simpa using hempty
      obtain ⟨s, text, s', hs, hrun, hs', hwithin⟩ := h.2 x hx
      rw [hnone] at hwithin
      exact ⟨s, text, s', hs, hrun, hs', hwithin.of_empty sql⟩
    · exact ensures_note_bind _ _ fun _ => Led.bind (led_usePatternNamed t _) fun _ => .pure _
  · refine Ensures.after (led_fromClause t _) fun source => ?_
    obtain ⟨hwhere, hexpressionHole⟩ := (Catalog.showsParts_of_mem hp).subquery (hname ▸ hword)
    rw [ht, hget]
    refine Ensures.after (led_usePattern t p) fun _ => ?_
    refine (ensures_fillPattern p _).imp fun filled hrender h => ⟨?_, fun hne => ?_⟩
    · have hfiltered : Within (if conditions.isEmpty then "" else " WHERE " ++ conditions) filled :=
        p.within_render t.dialect hrender hwhere (by simp [List.lookup_cons])
      refine h.2.within (Within.trans ?_ hfiltered)
      split
      · next hempty =>
        have hnone : conditions = "" := by simpa using hempty
        rw [hnone]
        exact Within.refl ""
      · exact within_append_right _ _
    · rw [← hname] at hne
      exact h.1.within (p.within_render t.dialect hrender (hexpressionHole hne) (by simp))

/-! ### Calls -/

/-- **An expression under its own filters** shows what is to be seen of both. -/
theorem ensures_filteredCall (ht : t.patterns = .builtin) (hsub : ShowsBelow t n) {name : String}
    (hname : Text.asciiUpper name ∈ Catalog.subqueries) {args : List Expr}
    (h : Expr.heightAll args ≤ n) :
    Ensures (Clean rows) (filteredCall t (renderExpr t) name args) fun sql =>
      ∀ first rest, args = first :: rest →
        AllRendered t (if (Expr.nodesAll rest).any takesAway then [] else
          shownFilters t rows rest) sql ∧
        (Text.asciiUpper name ≠ "CALCULATETABLE" → AllRendered t (shown t rows first) sql) := by
  unfold filteredCall
  split
  · exact ensures_malformedCall name _ _
  · next expression filters =>
    simp only [Expr.heightAll] at h
    have happly : Applies t rows (applyFilters t (renderExpr t) filters)
        (if (Expr.nodesAll filters).any takesAway then [] else shownFilters t rows filters) := by
      split
      · exact Applies.of_led (led_applyFilters (led_renderExpr t) filters)
      · next hstays =>
        exact (adds_applyFilters hsub filters (by omega) (by simpa using hstays) rows).applies
    refine (ensures_subquery ht hname happly (led_renderExpr t expression)
      (hsub expression (by omega) rows)).imp fun sql hsql first rest heq => ?_
    cases heq
    exact hsql

/-- The templates of the dates of a total show their argument. -/
theorem periodOf_shows (word : String) :
    (PatternLibrary.builtin.get? (periodOf word)).any (·.shows 0) = true := by
  have hperiod : periodOf word ∈ ["DATESYTD", "DATESQTD", "DATESMTD"] := by
    unfold periodOf
    split <;> simp
  have hall : ∀ period ∈ ["DATESYTD", "DATESQTD", "DATESMTD"],
      ∃ p ∈ Catalog.builtin, p.name = period := by
    decide +kernel
  obtain ⟨p, hp, hget, hname⟩ := PatternLibrary.exists_get?_of_name (hall _ hperiod)
  rw [hget]
  exact (Catalog.showsParts_of_mem hp).period (hname ▸ hperiod)

/-- **A total to date** shows what is to be seen of its expression, its dates and its filters. -/
theorem ensures_totalToDateCall (ht : t.patterns = .builtin) (hsub : ShowsBelow t n) {name : String}
    (hname : Text.asciiUpper name ∈ Catalog.subqueries)
    (htotal : Text.asciiUpper name ≠ "CALCULATETABLE") {args : List Expr}
    (h : Expr.heightAll args ≤ n) :
    Ensures (Clean rows) (totalToDateCall t (renderExpr t) name args) fun sql =>
      ∀ first rest, args = first :: rest →
        AllRendered t (shown t rows first ++ shownDates t rows rest) sql := by
  unfold totalToDateCall
  split
  · next expression dates filters =>
    simp only [Expr.heightAll] at h
    have hdates : Ensures (Clean rows) (genericCall t (renderExpr t)
        (periodOf (Text.asciiUpper name)) [dates]) (AllRendered t (shown t rows dates)) := by
      have hheight : Expr.heightAll [dates] ≤ n := by
        simp only [Expr.heightAll]
        omega
      refine (ensures_genericCall ht hsub _ hheight).imp fun sql hsql x hx =>
        hsql x (List.mem_append_right _ ?_)
      rw [shownArgs, ht, periodOf_shows]
      exact List.mem_append_left _ hx
    have hled : Led true (do
        addCondition t (genericCall t (renderExpr t) (periodOf (Text.asciiUpper name)) [dates])
          dates.firstColumn?
        applyFilters t (renderExpr t) filters) :=
      Led.bind (led_addCondition (led_genericCall (led_renderExpr t) _ _) _) fun _ =>
        led_applyFilters (led_renderExpr t) _
    have happly : Applies t rows (do
        addCondition t (genericCall t (renderExpr t) (periodOf (Text.asciiUpper name)) [dates])
          dates.firstColumn?
        applyFilters t (renderExpr t) filters) (shownDates t rows (dates :: filters)) := by
      rw [shownDates]
      split
      · exact Applies.of_led hled
      · next hstays =>
        exact (Adds.bind (adds_addCondition (led_genericCall (led_renderExpr t) _ _) hdates _)
          fun _ => adds_applyFilters hsub filters (by omega) (by simpa using hstays) rows).applies
    refine (ensures_subquery ht hname happly (led_renderExpr t expression)
      (hsub expression (by omega) rows)).imp fun sql hsql first rest heq => ?_
    cases heq
    exact AllRendered.append (hsql.2 htotal) hsql.1
  · exact ensures_malformedCall name args _

/-- The functions of each rule that is not that of most functions. -/
theorem mem_of_route (name : String) :
    (route name = .calculate → Text.asciiUpper name = "CALCULATE") ∧
    (route name = .calculateTable → Text.asciiUpper name = "CALCULATETABLE") ∧
    (route name = .total → Text.asciiUpper name ∈ ["TOTALYTD", "TOTALQTD", "TOTALMTD"]) ∧
    (route name = .projection →
      Text.asciiUpper name ∈ ["SUMMARIZE", "ADDCOLUMNS", "SELECTCOLUMNS"]) ∧
    (route name = .iterator →
      Text.asciiUpper name ∈ ["SUMX", "AVERAGEX", "COUNTX", "MINX", "MAXX"]) := by
  unfold route
  split <;> simp [*]

/-- **A call** shows what is to be seen of it. -/
theorem ensures_renderCall (ht : t.patterns = .builtin) (hsub : ShowsBelow t n) (name : String)
    {args : List Expr} (h : Expr.heightAll args ≤ n) :
    Ensures (Clean rows) (renderCall t (renderExpr t) name args)
      (AllRendered t (shownCall t rows name args)) := by
  obtain ⟨hcalculate, htable, htotal, hprojection, hiterator⟩ := mem_of_route name
  cases args with
  | nil =>
    refine (Ensures.of_led (led_renderCall (led_renderExpr t) name [])).imp fun sql _ => ?_
    simp [shownCall, AllRendered.nil]
  | cons first rest =>
    rw [renderCall_eq, shownCall]
    cases hroute : route name with
    | calculate =>
      have hname := hcalculate hroute
      refine (ensures_filteredCall ht hsub (by rw [hname]; decide) h).imp fun sql hsql => ?_
      obtain ⟨hfilters, hfirst⟩ := hsql first rest rfl
      exact AllRendered.append (hfirst (by rw [hname]; decide)) hfilters
    | calculateTable =>
      refine (ensures_filteredCall ht hsub (by rw [htable hroute]; decide) h).imp fun sql hsql => ?_
      exact (hsql first rest rfl).1
    | total =>
      have hwords : ∀ word ∈ ["TOTALYTD", "TOTALQTD", "TOTALMTD"],
          word ∈ Catalog.subqueries ∧ word ≠ "CALCULATETABLE" := by
        decide
      obtain ⟨hmem, hne⟩ := hwords _ (htotal hroute)
      exact (ensures_totalToDateCall ht hsub hmem hne h).imp fun sql hsql => hsql first rest rfl
    | switch => exact ensures_switchCall ht hsub name h
    | projection =>
      exact (ensures_projectionCall ht hsub (hprojection hroute) h).imp fun sql hsql =>
        hsql first rest rfl
    | iterator =>
      exact (ensures_iteratorCall ht hsub (hiterator hroute) h).imp fun sql hsql =>
        hsql first rest rfl
    | generic =>
      have hgeneric : Ensures (Clean rows) _ _ := ensures_genericCall ht hsub name h
      rwa [shownArgs] at hgeneric

theorem ensures_renderOperand (hsub : ShowsBelow t n) {e : Expr} (h : e.height ≤ n)
    (parent : Nat) (onRight : Bool) :
    Ensures (Clean rows) (renderOperand (renderExpr t) e parent onRight)
      (AllRendered t (shown t rows e)) := by
  refine (hsub e h rows).keep fun sql hsql => hsql.within ?_
  rw [parenthesized]
  split
  · exact within_append _ _ _
  · exact Within.refl sql

/-- No value shows nothing. -/
theorem shown_of_isBlank {e : Expr} (h : e.isBlank = true) : shown t rows e = [] := by
  unfold Expr.isBlank at h
  split at h
  · simp [shown]
  · cases h

/-- Two texts that stand in one show what is to be seen in them. -/
theorem allRendered_pair {xs ys : List RowPredicate} {a b : String} (ha : AllRendered t xs a)
    (hb : AllRendered t ys b) (front mid back : String) :
    AllRendered t (xs ++ ys) (front ++ a ++ mid ++ b ++ back) := by
  refine AllRendered.append (ha.within ?_) (hb.within (within_append _ _ _))
  rw [String.append_assoc, String.append_assoc]
  exact within_append _ _ _

theorem ensures_renderBinary (hsub : ShowsBelow t n) {l r : Expr} (op : BinaryOp)
    (hl : l.height ≤ n) (hr : r.height ≤ n) :
    Ensures (Clean rows) (renderBinary t (renderExpr t) l op r)
      (AllRendered t (shown t rows l ++ shown t rows r)) := by
  rw [renderBinary]
  split
  · next hblank =>
    simp only [Bool.and_eq_true, Bool.or_eq_true] at hblank
    by_cases hright : r.isBlank = true
    · rw [if_pos hright, shown_of_isBlank hright, List.append_nil]
      exact (ensures_renderOperand hsub hl _ _).keep fun sql hsql => hsql.within
        (by rw [String.append_assoc, String.append_assoc]; exact within_append_left _ _)
    · rw [if_neg hright, shown_of_isBlank (hblank.2.resolve_right hright), List.nil_append]
      exact (ensures_renderOperand hsub hr _ _).keep fun sql hsql => hsql.within
        (by rw [String.append_assoc, String.append_assoc]; exact within_append_left _ _)
  · split
    · exact (hsub l hl rows).bind fun base => (hsub r hr rows).keep fun exponent hexp hbase =>
        allRendered_pair hbase hexp _ _ _
    · refine (ensures_renderOperand hsub hl _ _).bind fun a =>
        (ensures_renderOperand hsub hr _ _).bind fun b => ?_
      have hoccurs : ∀ symbol : String, AllRendered t (shown t rows r) b →
          AllRendered t (shown t rows l) a →
            AllRendered t (shown t rows l ++ shown t rows r) (a ++ " " ++ symbol ++ " " ++ b) := by
        intro symbol hb ha
        have hpair := allRendered_pair ha hb "" (" " ++ symbol ++ " ") ""
        simpa [String.append_assoc] using hpair
      refine .ite (.ite (.pure (hoccurs _)) (.pure fun hb ha => ?_)) (.pure (hoccurs _))
      exact allRendered_pair ha hb _ _ _

theorem ensures_renderCond (ht : t.patterns = .builtin) (hsub : ShowsBelow t n) {c a : Expr}
    {e : Option Expr} (hc : c.height ≤ n) (ha : a.height ≤ n) (he : Expr.heightOpt e ≤ n) :
    Ensures (Clean rows) (renderCond t (renderExpr t) c a e)
      (AllRendered t (shown t rows c ++ shown t rows a ++ shownOpt t rows e)) := by
  have hword : Text.asciiUpper "IF" = "IF" := rfl
  have hcontains := contains_builtin hword rfl (by decide)
  obtain ⟨p, hget⟩ := Option.isSome_iff_exists.mp hcontains
  obtain ⟨hp, hname⟩ := PatternLibrary.mem_builtin_of_get? hget
  rw [Text.upper_of_asciiUpper hword rfl] at hname
  obtain ⟨hshows₀, hshows₁, hshows₂⟩ := (Catalog.showsParts_of_mem hp).cond hname
  have hrest : Expr.heightAll e.toList ≤ n := by
    cases e with
    | none => simp [Expr.heightAll]
    | some e => simpa [Expr.heightAll, Expr.heightOpt] using he
  rw [renderCond]
  refine (hsub c hc rows).bind fun c' => (hsub a ha rows).bind fun a' =>
    (ensures_renderAll hsub hrest).bind fun rest' => ?_
  rw [ht, hget]
  refine (ensures_applyPattern hp _ none).imp fun sql hsql hrest ha' hc' => ?_
  refine AllRendered.append (AllRendered.append ?_ ?_) ?_
  · exact hc'.within (hsql 0 c' rfl hshows₀)
  · exact ha'.within (hsql 1 a' rfl hshows₁)
  · cases e with
    | none => exact AllRendered.nil
    | some e =>
      obtain ⟨text, htext, hrendered⟩ := hrest 0 e rfl
      exact hrendered.within (hsql 2 text (by simpa using htext) hshows₂)

/-- **One level of an expression** shows what is to be seen of it when the levels below do. -/
theorem ensures_renderWith (ht : t.patterns = .builtin) (hsub : ShowsBelow t n) {e : Expr}
    (h : e.height ≤ n + 1) :
    Ensures (Clean rows) (renderWith t (renderExpr t) e) (AllRendered t (shown t rows e)) := by
  cases e with
  | literal value => exact .pure (by simp [shown, AllRendered.nil])
  | column ref =>
    have hled : Led false (resolveColumn t ref) := led_resolveColumn t ref
    refine (Ensures.of_led hled).keep fun _ _ => ?_
    simp [shown, AllRendered.nil]
  | table name =>
    have hled : Led false (renderTable t name) :=
      .ite (.pure _) (.ite (.pure _) (Led.bind (led_resolveTable t name) fun _ => .pure _))
    refine (Ensures.of_led hled).imp fun _ _ => ?_
    simp [shown, AllRendered.nil]
  | call name args =>
    simp only [Expr.height] at h
    rw [shown]
    exact ensures_renderCall ht hsub name (by omega)
  | binary l op r =>
    simp only [Expr.height] at h
    rw [shown]
    exact ensures_renderBinary hsub op (by omega) (by omega)
  | unary op e =>
    simp only [Expr.height] at h
    rw [shown]
    refine (hsub e (by omega) rows).bind fun sql => ?_
    have hoperand : Within sql (parenthesized (signNeedsParens e sql) sql) := by
      rw [parenthesized]
      split
      · exact within_append _ _ _
      · exact Within.refl sql
    cases op with
    | negate => exact .pure fun hsql => hsql.within (hoperand.trans (within_append_right _ _))
    | not => exact .pure fun hsql => hsql.within (hoperand.trans (within_append_right _ _))
  | «variable» name value =>
    cases value with
    | none => exact ensures_note_bind _ _ fun _ => .pure _
    | some value =>
      simp only [Expr.height, Expr.heightOpt] at h
      rw [shown, shownOpt]
      refine (hsub value (by omega) rows).keep fun sql hsql => hsql.within ?_
      rw [parenthesized]
      split
      · exact within_append _ _ _
      · exact Within.refl sql
  | cond c a e =>
    simp only [Expr.height] at h
    rw [shown]
    exact ensures_renderCond ht hsub (by omega) (by omega) (by omega)
  | measure name body format description =>
    simp only [Expr.height] at h
    rw [shown]
    refine (hsub body (by omega) rows).keep fun sql hsql => hsql.within ?_
    rw [String.append_assoc]
    exact within_append_left _ _

/-- **What is to be seen of an expression is seen** when it is rendered without a warning. -/
theorem ensures_renderExpr (ht : t.patterns = .builtin) (e : Expr) (rows : List String) :
    Ensures (Clean rows) (renderExpr t e) (AllRendered t (shown t rows e)) := by
  have hbelow : ∀ n, ShowsBelow t n := by
    intro n
    induction n with
    | zero => exact fun e h => absurd (height_pos e) (by omega)
    | succ n ih =>
      intro e h rows
      rw [renderExpr_eq]
      exact ensures_renderWith ht ih h
  exact hbelow e.height e (Nat.le_refl _) rows

end Rendering

/-! ## Queries -/

namespace Engine

open Rendering

/-- **Which conditions on rows are seen.**  When a query is made with the catalog and without a
warning, every condition that stands in none of the places whose text is lost occurs in the SQL, as
it is rendered among its rows.  So if none of them stands in such a place, all do. -/
theorem shown_of_query (e : Engine) (hlib : e.patterns = .builtin) (dax : String) (q : Query)
    (hq : e.query dax = .ok q) (hs : q.success = true) (hwarn : q.warnings = []) :
    (∀ x ∈ shown e.target [] (parseSource dax).tree, Rendered e.target x q.sql) ∧
    ((shown e.target [] (parseSource dax).tree).length =
        (predicates (parseSource dax).tree.nodes).length →
      ∀ name table condition, .call name [table, condition] ∈ (parseSource dax).tree.nodes →
        isFilter name = true → ∃ rows, Rendered e.target (rows, condition) q.sql) := by
  obtain ⟨sql, s, hrun, -, hquery⟩ := exists_state_of_query hq hs
  obtain ⟨rfl⟩ : q = .ofState dax sql s := by
    rcases hquery with heq | ⟨-, warning, hwarn'⟩
    · exact heq
    · simp [hwarn'] at hwarn
  have hclean : Clean [] s := by
    have hled := led_renderExpr e.target (parseSource dax).tree {}
    rw [hrun] at hled
    exact ⟨hwarn, hled.rowTables_eq⟩
  have hshown := (ensures_renderExpr hlib (parseSource dax).tree [] {} sql s hrun hclean).2
  refine ⟨hshown, fun hall name table condition hmem hfilter => ?_⟩
  have hmap := (map_shown_sublist e.target [] (parseSource dax).tree).eq_of_length
    (by rw [List.length_map, hall])
  have hcondition : condition ∈ predicates (parseSource dax).tree.nodes :=
    List.mem_filterMap.mpr ⟨_, hmem, by simp [ownPredicate?, hfilter]⟩
  rw [← hmap] at hcondition
  obtain ⟨⟨rows, c⟩, hx, rfl⟩ := List.mem_map.mp hcondition
  exact ⟨rows, hshown _ hx⟩

/-- The condition of an iterated table is seen. -/
theorem shown_sum_of_large_quantities :
    ∃ q, Engine.query { schema := some .retail }
        "SUMX(FILTER(Sales, Sales[Amount] > 100), Sales[Quantity])" = .ok q ∧
      ∀ name table condition, .call name [table, condition] ∈
          (parseSource "SUMX(FILTER(Sales, Sales[Amount] > 100), Sales[Quantity])").tree.nodes →
        isFilter name = true → ∃ rows, Rendered (Engine.target { schema := some .retail })
          (rows, condition) q.sql := by
  -- both at once, since the kernel then reads the text only once
  have evaluated :
      ((Engine.query { schema := some .retail }
        "SUMX(FILTER(Sales, Sales[Amount] > 100), Sales[Quantity])").toOption.map
          fun q => (q.success, q.warnings)) = some (true, []) ∧
      (shown (Engine.target { schema := some .retail }) []
        (parseSource "SUMX(FILTER(Sales, Sales[Amount] > 100), Sales[Quantity])").tree).length =
      (predicates (parseSource
        "SUMX(FILTER(Sales, Sales[Amount] > 100), Sales[Quantity])").tree.nodes).length := by
    rw [PatternLibrary.builtin_eq]
    decide +kernel
  obtain ⟨hview, hall⟩ := evaluated
  obtain ⟨q, hq, hends⟩ := exists_of_map_toOption hview
  obtain ⟨hs, hwarn⟩ := Prod.mk.inj hends
  have hlib : (Engine.mk (some .retail) .builtin .snowflake none .medium).patterns = .builtin := by
    dsimp only
  exact ⟨q, hq, (shown_of_query _ hlib _ q hq hs hwarn).2 hall⟩

end Engine

end MeasureSql
