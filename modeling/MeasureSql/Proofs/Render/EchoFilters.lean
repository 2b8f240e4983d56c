import MeasureSql.Proofs.Render.EchoRules
import MeasureSql.Proofs.Render.FilterTables

/-!
# Echoes of filters

Filters in two spellings are the same conditions under the same keys, so that an expression under
its own filters becomes a query over the same tables with the same conditions.  The table of a
condition is known again by the key that it is filed under: it is a table of the schema, or the name
is the small form of the key.

## Main results

* `echoes_applyFilters` — the filters of a call.
* `echoes_subquery` — an expression under its own filters.
* `echoes_renderCall` — every call.
-/

namespace MeasureSql.Rendering

open Dax List Sql

variable {V : Vocabulary} {t : Target}

/-! ## Filters -/

theorem FiltersIn.of_subset {f g : FilterContext} (h : g.entries ⊆ f.entries)
    (hf : FiltersIn V t f) : FiltersIn V t g :=
  ⟨fun e he => hf.conditions e (h he), fun e he => hf.keys e (h he)⟩

theorem mem_map_of_mem_addEntry {key condition : String} {entries : List (String × List String)}
    {e : String × List String} (h : e ∈ FilterContext.addEntry key condition entries) :
    e.1 = key ∨ ∃ e' ∈ entries, e'.1 = e.1 := by
  induction entries with
  | nil => exact .inl (congrArg Prod.fst (mem_singleton.mp h))
  | cons head entries ih =>
    rw [FilterContext.addEntry] at h
    split at h
    · rcases mem_cons.mp h with rfl | h
      · exact .inr ⟨head, mem_cons_self, rfl⟩
      · exact .inr ⟨e, mem_cons_of_mem _ h, rfl⟩
    · rcases mem_cons.mp h with rfl | h
      · exact .inr ⟨e, mem_cons_self, rfl⟩
      · refine (ih h).imp_right ?_
        rintro ⟨e', he', same⟩
        exact ⟨e', mem_cons_of_mem _ he', same⟩

theorem FiltersIn.add (ht : V.Fits t) {f : FilterContext} (hf : FiltersIn V t f)
    {table condition : String} (htable : table = "" ∨ V.name table) (column : String)
    (hcondition : Composed V condition) : FiltersIn V t (f.add table column condition) := by
  refine ⟨fun e he c hc => ?_, fun e he found hfound => ?_⟩
  · rcases FilterContext.exists_of_mem_addEntry he hc with ⟨rfl, -⟩ | ⟨e', he', -, hc⟩
    · exact hcondition
    · exact hf.conditions e' he' c hc
  · rcases mem_map_of_mem_addEntry he with same | ⟨e', he', same⟩
    · obtain ⟨ne, rfl⟩ := keyTable?_of_key (same ▸ hfound)
      have hname : V.name table := htable.resolve_left ne
      unfold Target.keyName
      cases known : t.schema?.bind (·.table? _) with
      | none => exact V.name_of_key hname
      | some tb =>
        obtain ⟨schema, hschema, htb⟩ := Option.bind_eq_some_iff.mp known
        exact ((ht.schema schema hschema).table tb (Schema.mem_of_table? htb)).1
    · exact hf.keys e' he' found (same ▸ hfound)

theorem echoes_changeFilters {f : FilterContext → FilterContext}
    (h : ∀ g, FiltersIn V t g → FiltersIn V t (f g)) :
    Echoes V t (fun _ => True) (changeFilters f) (changeFilters f) := by
  refine .step ?_ fun s hs => ⟨h _ hs.filters, hs.rows, hs.scopes⟩
  rintro s _ ⟨ws, rfl⟩
  exact ⟨_, rfl⟩

/-- Filters that are taken away. -/
theorem echoes_removal {f : FilterContext → FilterContext}
    (h : ∀ g, (f g).entries ⊆ g.entries) :
    Echoes V t (fun _ => True) (changeFilters f) (changeFilters f) :=
  echoes_changeFilters fun g => .of_subset (h g)

/-! ### Conditions -/

theorem echoes_addCondition (ht : V.Fits t) {m m' : Rendering String}
    (h : Echoes V t (Composed V) m m') {column : Option ColumnRef}
    (hcolumn : ∀ ref ∈ column, V.HoldsColumn ref) :
    Echoes V t (fun _ => True) (addCondition t m column)
      (addCondition t m' (column.map ColumnRef.inCapitals)) := by
  refine Echoes.bind h fun condition hcondition => ?_
  have add {table : String} (name : String) (htable : table = "" ∨ V.name table) :
      Echoes V t (fun _ => True) (changeFilters (·.add table name condition))
        (changeFilters (·.add table name condition)) :=
    echoes_changeFilters fun g hg => hg.add ht htable name hcondition
  cases column with
  | none => exact add _ (.inl rfl)
  | some ref =>
    refine (echoes_resolveColumn ht (hcolumn ref rfl)).bind fun column hresolved => ?_
    refine add _ ?_
    cases htable : column.table with
    | none => exact .inl rfl
    | some table => exact .inr (hresolved.table table htable)

/-- A condition is put to the filters under its first column. -/
theorem echoes_condition (ht : V.Fits t) {e : Expr} (h : Echoed V t e)
    (hcolumn : ∀ ref ∈ e.firstColumn?, V.HoldsColumn ref) :
    Echoes V t (fun _ => True) (addCondition t (renderExpr t e) e.firstColumn?)
      (addCondition t (renderExpr t e.inCapitals) e.inCapitals.firstColumn?) := by
  rw [Expr.firstColumn?_inCapitals]
  exact echoes_addCondition ht h hcolumn

/-! ### Filters that are taken away -/

theorem echoes_removeTarget (ht : V.Fits t) {e : Expr} (h : V.Covers t.dialect e) :
    Echoes V t (fun _ => True) (removeTarget t e) (removeTarget t e.inCapitals) := by
  have filtered (g : FilterContext) (p : String × List String → Bool) :
      g.entries.filter p ⊆ g.entries :=
    filter_subset_self _
  cases e with
  | table name =>
    exact (echoes_resolveTable ht h).bind fun _ _ => echoes_removal fun g => filtered g _
  | column ref =>
    refine (echoes_resolveColumn ht h).bind fun column _ => ?_
    cases column.table with
    | none => exact .pure trivial
    | some table => exact echoes_removal fun g => filtered g _
  | _ => exact .pure trivial

theorem echoes_removeTargets (ht : V.Fits t) {args : List Expr}
    (h : ∀ e ∈ args, V.Covers t.dialect e) :
    Echoes V t (fun _ => True) (args.forM (removeTarget t))
      ((args.map Expr.inCapitals).forM (removeTarget t)) := by
  induction args with
  | nil => exact .pure trivial
  | cons e args ih =>
    obtain ⟨he, hargs⟩ := forall_mem_cons.mp h
    exact (echoes_removeTarget ht he).bind fun _ _ => ih hargs

theorem echoes_keptColumns (ht : V.Fits t) {args : List Expr}
    (h : ∀ e ∈ args, V.Covers t.dialect e) :
    Echoes V t (fun _ => True) (keptColumns t args) (keptColumns t (args.map Expr.inCapitals)) := by
  induction args with
  | nil => exact .pure trivial
  | cons e args ih =>
    obtain ⟨he, hargs⟩ := forall_mem_cons.mp h
    cases e with
    | column ref =>
      exact (echoes_resolveColumn ht he).bind fun _ _ => (ih hargs).bind fun _ _ => .pure trivial
    | _ => exact ih hargs

theorem echoes_keepOnly (ht : V.Fits t) {args : List Expr}
    (h : ∀ e ∈ args, V.Covers t.dialect e) :
    Echoes V t (fun _ => True) (keepOnly t args) (keepOnly t (args.map Expr.inCapitals)) := by
  cases args with
  | nil => exact .pure trivial
  | cons e columns =>
    obtain ⟨he, hcolumns⟩ := forall_mem_cons.mp h
    rw [map_cons]
    cases htable : e.isTable with
    | true =>
      obtain ⟨name, rfl⟩ := Expr.exists_of_isTable htable
      exact (echoes_resolveTable ht he).bind fun _ _ => (echoes_keptColumns ht hcolumns).bind
        fun _ _ => echoes_removal fun g => filter_subset_self _
    | false =>
      rw [keepOnly_of_not_isTable htable,
        keepOnly_of_not_isTable ((isTable_inCapitals e).trans htable)]
      exact echoes_removeTarget ht he

/-! ### Filter arguments -/

variable {P : Expr → Prop}

theorem echoes_removeAll (ht : V.Fits t) (name : String) {args : List Expr}
    (h : ∀ e ∈ args, V.Covers t.dialect e) :
    Echoes V t (fun _ => True)
      (do
        usePatternNamed t name
        if args.isEmpty then
          changeFilters fun _ => .empty
        args.forM (removeTarget t))
      (do
        usePatternNamed t (Text.asciiUpper name)
        if (args.map Expr.inCapitals).isEmpty then
          changeFilters fun _ => .empty
        (args.map Expr.inCapitals).forM (removeTarget t)) := by
  rw [isEmpty_map]
  refine (echoes_usePatternNamed (Text.upper_asciiUpper name)).bind fun _ _ =>
    .ite ?_ (echoes_removeTargets ht h)
  exact (echoes_removal fun g => by simp [FilterContext.empty]).bind fun _ _ =>
    echoes_removeTargets ht h

mutual

/-- **A filter argument** does the same to the filters in capitals. -/
theorem echoes_applyFilter (ht : V.Fits t) (hP : Known V t P) : ∀ e : Expr, P e →
    Echoes V t (fun _ => True) (applyFilter t (renderExpr t) e)
      (applyFilter t (renderExpr t) e.inCapitals)
  | .call name args, he => by
    have hargs := hP.inherited name args he
    have hcovers : ∀ e ∈ args, V.Covers t.dialect e := fun e he => hP.covers e (hargs e he)
    have hkeep := echoes_applyFilters ht hP args hargs
    have condition := echoes_condition ht (hP.echoed _ he) (hP.column _ he)
    rw [Expr.inCapitals_call] at condition ⊢
    unfold applyFilter
    rw [Text.asciiUpper_asciiUpper]
    split
    · exact echoes_removeAll ht name hcovers
    · exact echoes_removeAll ht name hcovers
    · exact (echoes_usePatternNamed rfl).bind fun _ _ => echoes_keepOnly ht hcovers
    · exact (echoes_usePatternNamed rfl).bind fun _ _ => hkeep
    · rcases args with _ | ⟨table, _ | ⟨predicate, _ | ⟨third, rest⟩⟩⟩
      · exact condition
      · exact condition
      · obtain ⟨htable, hpredicate⟩ : P table ∧ P predicate := by simpa using hargs
        refine (echoes_usePatternNamed rfl).bind fun _ _ => ?_
        refine (echoes_tableArgument ht (hP.covers _ htable) (hP.echoed _ htable)).bind ?_
        rintro ⟨sql, row⟩ ⟨-, hrow⟩
        exact (echoes_condition ht (hP.echoed _ hpredicate) (hP.column _ hpredicate)).withRow hrow
      · exact condition
    · exact condition
  | .literal value, he
  | .column ref, he
  | .table name, he
  | .binary l op r, he
  | .unary op e, he
  | .variable name value, he
  | .cond c a e, he
  | .measure name body format description, he =>
    echoes_condition ht (hP.echoed _ he) (hP.column _ he)

theorem echoes_applyFilters (ht : V.Fits t) (hP : Known V t P) : ∀ es : List Expr,
    (∀ e ∈ es, P e) →
    Echoes V t (fun _ => True) (applyFilters t (renderExpr t) es)
      (applyFilters t (renderExpr t) (es.map Expr.inCapitals))
  | [], _ => .pure trivial
  | e :: es, hes => by
    obtain ⟨he, hes⟩ := forall_mem_cons.mp hes
    exact (echoes_applyFilter ht hP e he).bind fun _ _ => echoes_applyFilters ht hP es hes

end

/-! ### Queries -/

theorem mem_filterTables_name (f : FilterContext) (hf : FiltersIn V t f) :
    ∀ table ∈ t.filterTables f, V.name table := by
  intro table htable
  obtain ⟨e, he, found, hkey, rfl⟩ := mem_filterTables_iff.mp htable
  exact hf.keys e (mem_of_mem_filter he) found hkey

theorem composed_whereClause {f : FilterContext} (hf : FiltersIn V t f)
    (ne : f.whereClause.isEmpty = false) : Composed V f.whereClause := by
  refine .intercalate (by simp [separators]) ?_ fun c hc => ?_
  · intro none
    simp [FilterContext.whereClause, none] at ne
  · obtain ⟨e, he, hc⟩ := mem_flatMap.mp hc
    exact hf.conditions e (mem_of_mem_filter he) c hc

/-- **An expression under its own filters.** -/
theorem echoes_subquery (ht : V.Fits t) (name : String) {apply apply' : Rendering Unit}
    {expression expression' : Rendering String}
    (happly : Echoes V t (fun _ => True) apply apply')
    (hexpression : Echoes V t (Composed V) expression expression') :
    Echoes V t (Composed V) (subquery t name apply expression)
      (subquery t name apply' expression') := by
  refine Echoes.bind (Q := fun x => Composed V x.1 ∧ (∀ table ∈ x.2.1, V.name table) ∧
    (x.2.2.isEmpty = false → Composed V x.2.2)) ?_ ?_
  · refine (happly.withScope.bind fun _ _ => hexpression.withScope.bind ?_).keepingFilters
    rintro ⟨sql, used⟩ ⟨hsql, hused⟩
    refine (echoes_forM_useTable hused).bind fun _ _ => .get ?_
    rintro s _ hs ⟨ws, rfl⟩
    refine .pure ⟨hsql, fun table htable => ?_, composed_whereClause hs.filters⟩
    rcases mem_foldl_addNew.mp htable with htable | htable
    · exact hused table htable
    · exact mem_filterTables_name _ hs.filters table htable
  · rintro ⟨sql, tables, conditions⟩ ⟨hsql, htables, hconditions⟩
    dsimp only at hsql htables hconditions ⊢
    have named : Echoes V t (Composed V) (do usePatternNamed t name; Pure.pure sql)
        (do usePatternNamed t name; Pure.pure sql) :=
      (echoes_usePatternNamed rfl).bind fun _ _ => .pure hsql
    split
    · exact .ite named ((echoes_note _ _ _).bind fun _ _ => named)
    · next hnonempty =>
      refine (echoes_fromClause ht (by simpa using hnonempty) htables).bind fun source hsource => ?_
      generalize hfiltered : (if conditions.isEmpty then "" else " WHERE " ++ conditions) = filtered
      have fills : Template.FillsHole V "where" filtered := by
        rw [Template.FillsHole, if_pos rfl, ← hfiltered]
        cases empty : conditions.isEmpty with
        | true => exact .inl rfl
        | false => exact .inr ⟨conditions, hconditions empty, rfl⟩
      cases found : t.patterns.get? name with
      | some p =>
        refine (echoes_usePattern p).bind fun _ _ => echoes_fillPattern (mem_builtin ht found) ?_
        exact forall_mem_cons.mpr ⟨.of_composed (by simp) hsql, forall_mem_cons.mpr
          ⟨.of_composed (by simp) hsource, forall_mem_singleton.mpr fills⟩⟩
      | none =>
        refine .pure ?_
        rw [@String.append_assoc _ source]
        exact composed_selection hsql (fills.composed_append hsource)

theorem echoes_filteredCall (ht : V.Fits t) (hP : Known V t P) {name : String}
    (hname : V.function (Text.asciiUpper name)) {args : List Expr} (hargs : ∀ e ∈ args, P e) :
    Echoes V t (Composed V) (filteredCall t (renderExpr t) name args)
      (filteredCall t (renderExpr t) (Text.asciiUpper name) (args.map Expr.inCapitals)) := by
  have h : ∀ e ∈ args, Echoed V t e := fun e he => hP.echoed e (hargs e he)
  cases args with
  | nil => exact echoes_malformedCall hname _ h
  | cons expression filters =>
    show Echoes V t (Composed V) (subquery t _ _ _) (subquery t _ _ _)
    rw [Text.asciiUpper_asciiUpper]
    exact echoes_subquery ht _
      (echoes_applyFilters ht hP filters (forall_mem_cons.mp hargs).2)
      (h expression mem_cons_self)

theorem echoes_totalToDateCall (ht : V.Fits t) (hP : Known V t P) {name : String}
    (hname : V.function (Text.asciiUpper name)) {args : List Expr} (hargs : ∀ e ∈ args, P e) :
    Echoes V t (Composed V) (totalToDateCall t (renderExpr t) name args)
      (totalToDateCall t (renderExpr t) (Text.asciiUpper name) (args.map Expr.inCapitals)) := by
  have h : ∀ e ∈ args, Echoed V t e := fun e he => hP.echoed e (hargs e he)
  rcases args with _ | ⟨expression, _ | ⟨dates, filters⟩⟩
  · exact echoes_malformedCall hname _ h
  · exact echoes_malformedCall hname _ h
  · obtain ⟨hexpression, hdates, hfilters⟩ : P expression ∧ P dates ∧ ∀ e ∈ filters, P e := by
      simpa using hargs
    show Echoes V t (Composed V) (subquery t _ _ _) (subquery t _ _ _)
    rw [Text.asciiUpper_asciiUpper]
    refine echoes_subquery ht _ ?_ (hP.echoed expression hexpression)
    have period : Echoes V t (Composed V)
        (genericCall t (renderExpr t) (periodOf (Text.asciiUpper name)) [dates])
        (genericCall t (renderExpr t) (periodOf (Text.asciiUpper name)) [dates.inCapitals]) := by
      have capitals : periodOf (Text.asciiUpper name) =
          Text.asciiUpper (periodOf (Text.asciiUpper name)) := by
        unfold periodOf
        split <;> decide
      refine echoes_genericCall ht ?_ capitals (by simpa using hP.echoed dates hdates)
        (by simpa using hP.covers dates hdates)
      rw [← capitals]
      refine V.function_of_run ?_
      unfold periodOf
      split <;> decide
    refine Echoes.bind (Q := fun _ => True) ?_ fun _ _ =>
      echoes_applyFilters ht hP filters hfilters
    rw [Expr.firstColumn?_inCapitals]
    exact echoes_addCondition ht period (hP.column dates hdates)

/-- **Every call does the same in capitals.** -/
theorem echoes_renderCall (ht : V.Fits t) (hP : Known V t P) {name : String}
    (hname : V.function (Text.asciiUpper name)) {args : List Expr} (hargs : ∀ e ∈ args, P e) :
    Echoes V t (Composed V) (renderCall t (renderExpr t) name args)
      (renderCall t (renderExpr t) (Text.asciiUpper name) (args.map Expr.inCapitals)) := by
  have h : ∀ e ∈ args, Echoed V t e := fun e he => hP.echoed e (hargs e he)
  have hcovers : ∀ e ∈ args, V.Covers t.dialect e := fun e he => hP.covers e (hargs e he)
  unfold renderCall
  rw [Text.asciiUpper_asciiUpper]
  split
  · exact echoes_filteredCall ht hP hname hargs
  · exact echoes_filteredCall ht hP hname hargs
  · exact echoes_totalToDateCall ht hP hname hargs
  · exact echoes_totalToDateCall ht hP hname hargs
  · exact echoes_totalToDateCall ht hP hname hargs
  · exact echoes_switchCall ht hname h
  · exact echoes_projectionCall ht hname h hcovers
  · exact echoes_projectionCall ht hname h hcovers
  · exact echoes_projectionCall ht hname h hcovers
  · exact echoes_iteratorCall ht hP hname hargs
  · exact echoes_iteratorCall ht hP hname hargs
  · exact echoes_iteratorCall ht hP hname hargs
  · exact echoes_iteratorCall ht hP hname hargs
  · exact echoes_iteratorCall ht hP hname hargs
  · exact echoes_genericCall ht hname rfl h hcovers

end MeasureSql.Rendering
