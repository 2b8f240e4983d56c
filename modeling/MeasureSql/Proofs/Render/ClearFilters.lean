import MeasureSql.Proofs.Render.ClearRules

/-!
# Filters without their variables

Filters that are put to those in force, and an expression evaluated under them, with and without
variables.  The conditions of the two sides are alike and are filed under the same keys: a condition
under its first column, which is the same, and a condition without a column under its own text,
which is the same where it is steady.

## Main results

* `both_applyFilters` — the filters of a call.
* `both_subquery` — an expression under its own filters.
* `both_renderCall` — every call.
-/

namespace MeasureSql.Rendering

open Dax List

section Filters

variable {t : Target} {S R : String → String → Prop} {P : Expr → Prop}

/-! ## Conditions -/

theorem both_addCondition (hRS : ∀ a a', R a a' → S a a') {m m' : Rendering String}
    (h : Both S R m m') (column : Option ColumnRef)
    (hkey : column = none → ∀ a a', R a a' → a = a') :
    Both S Eq (addCondition t m column) (addCondition t m' column) := by
  refine Both.bind h fun c c' hc => ?_
  have hadd : ∀ table name, Both S Eq (changeFilters (·.add table name c))
      (changeFilters (·.add table name c')) :=
    fun table name => .changeFilters fun f f' hf => hf.add table name (hRS c c' hc)
  cases column with
  | some ref => exact (both_resolveColumn t ref).bind_eq fun _ => hadd _ _
  | none =>
    obtain rfl := hkey rfl c c' hc
    exact hadd _ _

/-- A condition is put to the filters under its first column, or under its text if that is
steady. -/
theorem both_condition {e : Expr} (h : Carried t S (EqualIf (e.steady = true) S) e)
    (hkey : clearKey e = true) :
    Both S Eq (addCondition t (renderExpr t e) e.firstColumn?)
      (addCondition t (renderExpr t e.inlined) e.inlined.firstColumn?) := by
  rw [Expr.firstColumn?_inlined]
  refine both_addCondition (fun a a' ha => ha.1) h _ fun hnone a a' ha => ha.2 ?_
  simpa [clearKey, hnone] using hkey

/-! ## Filters that are taken away -/

theorem removeTarget_of_not_target {e : Expr} (htable : e.isTable = false)
    (hcolumn : e.isColumn = false) : removeTarget t e = pure () := by
  cases e with
  | table name => cases htable
  | column ref => cases hcolumn
  | _ => rfl

theorem removeTarget_inlined {e : Expr} (h : clearTarget e = true) :
    removeTarget t e.inlined = removeTarget t e := by
  rw [clearTarget, Bool.and_eq_true] at h
  have hsame := Expr.eq_of_shows h.1
  have hsame' := Expr.eq_of_shows h.2
  cases htable : e.isTable with
  | true =>
    obtain ⟨name, rfl⟩ := Expr.exists_of_isTable htable
    rfl
  | false =>
    cases hcolumn : e.isColumn with
    | true =>
      obtain ⟨ref, rfl⟩ := Expr.exists_of_isColumn hcolumn
      rfl
    | false =>
      rw [removeTarget_of_not_target htable hcolumn,
        removeTarget_of_not_target (hsame.trans htable) (hsame'.trans hcolumn)]

theorem both_removeTarget (e : Expr) : Both S Eq (removeTarget t e) (removeTarget t e) := by
  cases e with
  | table name =>
    exact (both_resolveTable t name).bind_eq fun table =>
      .changeFilters fun f f' hf => hf.removeTable table
  | column ref =>
    refine (both_resolveColumn t ref).bind_eq fun resolved => ?_
    cases resolved.table with
    | none => exact .pure rfl
    | some table => exact .changeFilters fun f f' hf => hf.removeColumn _ _
  | _ => exact .pure rfl

theorem both_removeTargets {args : List Expr} (h : args.all clearTarget = true) :
    Both S Eq (args.forM (removeTarget t)) ((args.map Expr.inlined).forM (removeTarget t)) := by
  induction args with
  | nil => exact .pure rfl
  | cons e args ih =>
    rw [all_cons, Bool.and_eq_true] at h
    have htarget : Both S Eq (removeTarget t e) (removeTarget t e.inlined) := by
      rw [removeTarget_inlined h.1]
      exact both_removeTarget e
    exact htarget.bind_eq fun _ => ih h.2

theorem keptColumns_inlined {es : List Expr} (h : (es.all fun e => e.shows Expr.isColumn) = true) :
    keptColumns t (es.map Expr.inlined) = keptColumns t es := by
  have hskip : ∀ {e : Expr}, e.isColumn = false →
      ∀ es, keptColumns t (e :: es) = keptColumns t es := by
    intro e he es
    cases e with
    | column ref => cases he
    | _ => rfl
  induction es with
  | nil => rfl
  | cons e es ih =>
    rw [all_cons, Bool.and_eq_true] at h
    have hsame := Expr.eq_of_shows h.1
    rw [map_cons]
    cases hcolumn : e.isColumn with
    | true =>
      obtain ⟨ref, rfl⟩ := Expr.exists_of_isColumn hcolumn
      rw [Expr.inlined, keptColumns, keptColumns, ih h.2]
    | false => rw [hskip hcolumn, hskip (hsame.trans hcolumn), ih h.2]

theorem both_keptColumns (es : List Expr) : Both S Eq (keptColumns t es) (keptColumns t es) := by
  fun_induction keptColumns t es with
  | case1 => exact .pure rfl
  | case2 ref rest ih =>
    exact (both_resolveColumn t ref).bind_eq fun _ => ih.bind_eq fun _ => .pure rfl
  | case3 e rest hne ih => exact ih

theorem keepOnly_of_not_isTable {e : Expr} (h : e.isTable = false) (columns : List Expr) :
    keepOnly t (e :: columns) = removeTarget t e := by
  cases e with
  | table name => cases h
  | _ => rfl

theorem both_keepOnly {args : List Expr} (h : clearKept args = true) :
    Both S Eq (keepOnly t args) (keepOnly t (args.map Expr.inlined)) := by
  cases args with
  | nil => exact .pure rfl
  | cons e columns =>
    rw [clearKept, Bool.and_eq_true] at h
    rw [map_cons]
    cases htable : e.isTable with
    | true =>
      obtain ⟨name, rfl⟩ := Expr.exists_of_isTable htable
      have hcolumns : (columns.all fun e => e.shows Expr.isColumn) = true := by
        simpa [Expr.isTable] using h.2
      rw [Expr.inlined, keepOnly, keepOnly, keptColumns_inlined hcolumns]
      exact (both_resolveTable t name).bind_eq fun table => (both_keptColumns columns).bind_eq
        fun kept => .changeFilters fun f f' hf => hf.keepOnly table kept
    | false =>
      have htarget := h.1
      rw [clearTarget, Bool.and_eq_true] at htarget
      have hsame := Expr.eq_of_shows htarget.1
      rw [keepOnly_of_not_isTable htable, keepOnly_of_not_isTable (hsame.trans htable),
        removeTarget_inlined h.1]
      exact both_removeTarget e

/-! ## Filter arguments -/

theorem applyFilter_of_not_rule (sub : Expr → Rendering String) {e : Expr}
    (h : isFilterRule e = false) :
    applyFilter t sub e = addCondition t (sub e) e.firstColumn? := by
  cases e with
  | call name args =>
    unfold isFilterRule at h
    rw [Bool.or_eq_false_iff] at h
    obtain ⟨hname, hfiltered⟩ := h
    unfold applyFilter Expr.firstColumn?
    generalize hupper : Text.asciiUpper name = upper at hname
    split
    · cases hname
    · cases hname
    · cases hname
    · cases hname
    · split
      · next table predicate => simp [isFiltered, iterated, hupper] at hfiltered
      · rfl
    · rfl
  | _ => rfl

theorem clearKey_of_not_rule {e : Expr} (h : isFilterRule e = false)
    (hclear : clearFilter e = true) : clearKey e = true := by
  cases e with
  | call name args =>
    unfold isFilterRule at h
    rw [Bool.or_eq_false_iff] at h
    obtain ⟨hname, hfiltered⟩ := h
    unfold clearFilter at hclear
    generalize hupper : Text.asciiUpper name = upper at hname hclear
    split at hclear
    · cases hname
    · cases hname
    · cases hname
    · cases hname
    · split at hclear
      · next table predicate => simp [isFiltered, iterated, hupper] at hfiltered
      · exact hclear
    · exact hclear
  | _ =>
    unfold clearFilter at hclear
    exact (Bool.and_eq_true_iff.mp hclear).2

theorem isFilterRule_inlined_call (name : String) (args : List Expr) :
    isFilterRule (Expr.call name args).inlined = isFilterRule (.call name args) := by
  have hfiltered :
      isFiltered (.call name (args.map Expr.inlined)) = isFiltered (.call name args) := by
    unfold isFiltered
    rcases args with _ | ⟨table, _ | ⟨predicate, _ | ⟨third, rest⟩⟩⟩
    · rfl
    · rfl
    · simp only [map_cons, map_nil, iterated]
      split <;> rfl
    · rfl
  rw [Expr.inlined_call, isFilterRule, isFilterRule, hfiltered]

/-- A filter argument that is a condition. -/
theorem both_applyFilter_of_not_rule {e : Expr} (h : Carried t S (EqualIf (e.steady = true) S) e)
    (hrule : isFilterRule e = false) (hsame : isFilterRule e.inlined = isFilterRule e)
    (hclear : clearFilter e = true) :
    Both S Eq (applyFilter t (renderExpr t) e) (applyFilter t (renderExpr t) e.inlined) := by
  rw [applyFilter_of_not_rule _ hrule, applyFilter_of_not_rule _ (hsame.trans hrule)]
  exact both_condition h (clearKey_of_not_rule hrule hclear)

theorem both_removeAll (hS : Congruence S) (name : String) {args : List Expr}
    (h : args.all clearTarget = true) :
    Both S Eq
      (do
        usePatternNamed t name
        if args.isEmpty then
          changeFilters fun _ => .empty
        args.forM (removeTarget t))
      (do
        usePatternNamed t name
        if (args.map Expr.inlined).isEmpty then
          changeFilters fun _ => .empty
        (args.map Expr.inlined).forM (removeTarget t)) := by
  rw [isEmpty_map]
  refine (both_usePatternNamed t name).bind_eq fun _ => .ite ?_ (both_removeTargets h)
  exact Both.bind_eq (.changeFilters fun _ _ _ => .refl hS _) fun _ => both_removeTargets h

mutual

/-- **A filter argument** does the same to the filters without its variables. -/
theorem both_applyFilter (hS : Congruence S) (hP : Inherited P)
    (hsub : ∀ e, P e → Carried t S (EqualIf (e.steady = true) S) e) :
    ∀ e : Expr, P e → clearFilter e = true →
      Both S Eq (applyFilter t (renderExpr t) e) (applyFilter t (renderExpr t) e.inlined)
  | .call name args, he, hclear => by
    have hargs := hP name args he
    have hkeep := both_applyFilters hS hP hsub args hargs
    cases hrule : isFilterRule (.call name args) with
    | false =>
      exact both_applyFilter_of_not_rule (hsub _ he) hrule (isFilterRule_inlined_call name args)
        hclear
    | true =>
      rw [Expr.inlined_call]
      unfold clearFilter at hclear
      unfold applyFilter
      rw [isFilterRule, Bool.or_eq_true] at hrule
      generalize hupper : Text.asciiUpper name = upper at hclear
      rw [hupper] at hrule
      split
      · exact both_removeAll hS name hclear
      · exact both_removeAll hS name hclear
      · exact (both_usePatternNamed t _).bind_eq fun _ => both_keepOnly hclear
      · exact (both_usePatternNamed t _).bind_eq fun _ => hkeep hclear
      · obtain ⟨table, predicate, rfl⟩ : ∃ table predicate, args = [table, predicate] := by
          rcases hrule with hrule | hrule
          · cases hrule
          · obtain ⟨f, table, predicate, heq, -⟩ := exists_of_isFiltered hrule
            exact ⟨table, predicate, (Expr.call.inj heq).2⟩
        have hshows := Bool.and_eq_true_iff.mp hclear
        obtain ⟨htable, hpredicate⟩ : P table ∧ P predicate := by simpa using hargs
        refine (both_usePatternNamed t _).bind_eq fun _ => ?_
        refine (both_tableArgument (hS.equalIf _) (hsub table htable) hshows.1).bind ?_
        rintro ⟨sql, row⟩ ⟨sql', _⟩ ⟨-, rfl⟩
        exact (both_condition (hsub predicate hpredicate) hshows.2).withRow row
      · next hall hremove hexcept hkeepName hfilter =>
        have hnot : isFiltered (.call name args) = false := by
          unfold isFiltered iterated
          split
          · next heq =>
            obtain ⟨rfl, rfl⟩ := Expr.call.inj heq
            rw [hupper, if_neg (by simpa using hfilter)]
            rfl
          · rfl
        have hnames : upper = "ALL" ∨ upper = "REMOVEFILTERS" ∨ upper = "ALLEXCEPT" ∨
            upper = "KEEPFILTERS" := by simpa [hnot] using hrule
        exact (hnames.elim hall (·.elim hremove (·.elim hexcept hkeepName))).elim
  | .literal value, he, hclear
  | .column ref, he, hclear
  | .table name, he, hclear
  | .binary l op r, he, hclear
  | .unary op e, he, hclear
  | .variable name value, he, hclear
  | .cond c a e, he, hclear
  | .measure name body format description, he, hclear => by
    refine both_applyFilter_of_not_rule (hsub _ he) rfl ?_ hclear
    unfold clearFilter at hclear
    exact Expr.eq_of_shows (Bool.and_eq_true_iff.mp hclear).1

theorem both_applyFilters (hS : Congruence S) (hP : Inherited P)
    (hsub : ∀ e, P e → Carried t S (EqualIf (e.steady = true) S) e) :
    ∀ es : List Expr, (∀ e ∈ es, P e) → clearFilters es = true →
      Both S Eq (applyFilters t (renderExpr t) es)
        (applyFilters t (renderExpr t) (es.map Expr.inlined))
  | [], _, _ => .pure rfl
  | e :: es, hes, hclear => by
    rw [clearFilters, Bool.and_eq_true] at hclear
    obtain ⟨he, hes⟩ := forall_mem_cons.mp hes
    exact (both_applyFilter hS hP hsub e he hclear.1).bind_eq fun _ =>
      both_applyFilters hS hP hsub es hes hclear.2

end

/-! ## Queries -/

theorem isEmpty_eq (hS : Congruence S) {a a' : String} (h : S a a') : a.isEmpty = a'.isEmpty := by
  rw [Bool.eq_iff_iff, String.isEmpty_iff, String.isEmpty_iff]
  exact hS.eq_empty h

/-- **An expression under its own filters**: the tables are the same, and the conditions are
alike. -/
theorem both_subquery (hS : Congruence S) {name : String} {apply apply' : Rendering Unit}
    {expression expression' : Rendering String} (happly : Both S Eq apply apply')
    (hexpression : Both S S expression expression') :
    Both S S (subquery t name apply expression) (subquery t name apply' expression') := by
  refine Both.bind (R := fun x x' => S x.1 x'.1 ∧ x.2.1 = x'.2.1 ∧ S x.2.2 x'.2.2) ?_ ?_
  · refine Both.keepingFilters (happly.withScope.bind fun _ _ _ => hexpression.withScope.bind ?_)
    rintro ⟨sql, used⟩ ⟨sql', _⟩ ⟨hsql, rfl⟩
    refine (both_forM_useTable used).bind_eq fun _ => Both.get ?_
    rintro s _ ⟨f, hf, rfl⟩
    refine .pure ⟨hsql, ?_, hf.whereClause hS⟩
    dsimp only
    rw [hf.filterTables t]
  · rintro ⟨sql, tables, conditions⟩ ⟨sql', _, conditions'⟩ ⟨hsql, rfl, hconditions⟩
    have hnamed : Both S S (do usePatternNamed t name; pure sql)
        (do usePatternNamed t name; pure sql') :=
      (both_usePatternNamed t name).bind_eq fun _ => .pure hsql
    dsimp only at hsql hconditions ⊢
    rw [isEmpty_eq hS hconditions]
    refine .ite (.ite hnamed ((both_note _ _).bind_eq fun _ => hnamed)) ?_
    refine (both_fromClause t tables).bind_eq fun source => ?_
    have hfiltered : S (if conditions'.isEmpty then "" else " WHERE " ++ conditions)
        (if conditions'.isEmpty then "" else " WHERE " ++ conditions') := by
      split
      · exact hS.refl _
      · exact hS.append (hS.refl _) hconditions
    cases t.patterns.get? name with
    | some p =>
      exact (both_usePattern t p).bind_eq fun _ => both_fillPattern hS p (.cons ⟨rfl, hsql⟩
        (.cons ⟨rfl, hS.refl _⟩ (.cons ⟨rfl, hfiltered⟩ .nil)))
    | none =>
      refine .pure (hS.append (hS.append (hS.append ?_ (hS.refl source)) hfiltered) (hS.refl _))
      exact hS.around _ hsql _

theorem both_filteredCall (hS : Congruence S) (hP : Inherited P)
    (hsub : ∀ e, P e → Carried t S (EqualIf (e.steady = true) S) e) (name : String)
    {args : List Expr} (hargs : ∀ e ∈ args, P e) (hclear : clearFiltered args = true) :
    Both S S (filteredCall t (renderExpr t) name args)
      (filteredCall t (renderExpr t) name (args.map Expr.inlined)) := by
  have h : ∀ e ∈ args, Carried t S S e := fun e he => (hsub e (hargs e he)).imp fun _ _ ha => ha.1
  cases args with
  | nil => exact both_malformedCall hS name _ h
  | cons expression filters =>
    exact both_subquery hS
      (both_applyFilters hS hP hsub filters (forall_mem_cons.mp hargs).2 hclear)
      (h expression mem_cons_self)

theorem both_totalToDateCall (hS : Congruence S) (hP : Inherited P)
    (hsub : ∀ e, P e → Carried t S (EqualIf (e.steady = true) S) e) (name : String)
    {args : List Expr} (hargs : ∀ e ∈ args, P e) (hclear : clearTotal t name args = true) :
    Both S S (totalToDateCall t (renderExpr t) name args)
      (totalToDateCall t (renderExpr t) name (args.map Expr.inlined)) := by
  have h : ∀ e ∈ args, Carried t S S e := fun e he => (hsub e (hargs e he)).imp fun _ _ ha => ha.1
  rcases args with _ | ⟨expression, _ | ⟨dates, filters⟩⟩
  · exact both_malformedCall hS name _ h
  · exact both_malformedCall hS name _ h
  · rw [clearTotal, Bool.and_eq_true, Bool.and_eq_true] at hclear
    obtain ⟨⟨hgeneric, hkey⟩, hfilters⟩ := hclear
    obtain ⟨hexpression, hdates, hrest⟩ : P expression ∧ P dates ∧ ∀ e ∈ filters, P e := by
      simpa using hargs
    refine both_subquery hS (Both.bind_eq ?_ fun _ =>
      both_applyFilters hS hP hsub filters hrest hfilters) (h expression mem_cons_self)
    rw [Expr.firstColumn?_inlined]
    refine both_addCondition (R := EqualIf (dates.steady = true) S) (fun a a' ha => ha.1)
      (both_genericCall (hS.equalIf _) _ ?_ hgeneric) _ fun hnone a a' ha => ha.2 ?_
    · simpa using hsub dates hdates
    · simpa [clearKey, hnone] using hkey

/-- **A call is rendered as it is without its variables.** -/
theorem both_renderCall (hS : Congruence S) (hP : Inherited P)
    (hsub : ∀ e, P e → Carried t S (EqualIf (e.steady = true) S) e) (name : String)
    {args : List Expr} (hargs : ∀ e ∈ args, P e) (hclear : clearCall t name args = true) :
    Both S (EqualIf ((Expr.call name args).steady = true) S)
      (renderCall t (renderExpr t) name args)
      (renderCall t (renderExpr t) name (args.map Expr.inlined)) := by
  have hR := hS.equalIf ((Expr.call name args).steady = true)
  generalize hp : ((Expr.call name args).steady = true) = p at hR ⊢
  have hparts : p → changesFilters name = false ∧ ∀ e ∈ args, e.steady = true := by
    rw [← hp, Expr.steady, Bool.and_eq_true, Bool.not_eq_true']
    exact fun h => ⟨h.1, Expr.steady_of_steadyAll h.2⟩
  have hinherited : Inherited fun e => P e ∧ (p → e.steady = true) := by
    intro f es h e he
    refine ⟨hP f es h.1 e he, fun hp => ?_⟩
    have hsteady := h.2 hp
    rw [Expr.steady, Bool.and_eq_true] at hsteady
    exact Expr.steady_of_steadyAll hsteady.2 e he
  have hpart : ∀ e, (P e ∧ (p → e.steady = true)) → Carried t S (EqualIf p S) e :=
    fun e he => (hsub e he.1).imp fun a a' ha => ⟨ha.1, fun hp => ha.2 (he.2 hp)⟩
  have hall : ∀ e ∈ args, P e ∧ (p → e.steady = true) :=
    fun e he => ⟨hargs e he, fun hp => (hparts hp).2 e he⟩
  have hcarried : ∀ e ∈ args, Carried t S (EqualIf p S) e := fun e he => hpart e (hall e he)
  have hquery : ∀ {m m' : Rendering String}, changesFilters name = true → Both S S m m' →
      Both S (EqualIf p S) m m' := by
    intro m m' hname h
    refine h.imp fun a a' ha => ⟨ha, fun hp => ?_⟩
    rw [(hparts hp).1] at hname
    cases hname
  unfold clearCall at hclear
  unfold changesFilters at hquery
  unfold renderCall
  generalize hupper : Text.asciiUpper name = upper at hclear hquery
  split
  · exact hquery rfl (both_filteredCall hS hP hsub name hargs hclear)
  · exact hquery rfl (both_filteredCall hS hP hsub name hargs hclear)
  · exact hquery rfl (both_totalToDateCall hS hP hsub name hargs hclear)
  · exact hquery rfl (both_totalToDateCall hS hP hsub name hargs hclear)
  · exact hquery rfl (both_totalToDateCall hS hP hsub name hargs hclear)
  · exact both_switchCall hR name hcarried hclear
  · exact both_projectionCall hR name hcarried hclear
  · exact both_projectionCall hR name hcarried hclear
  · exact both_projectionCall hR name hcarried hclear
  · exact both_iteratorCall hR hinherited hpart name hall hclear
  · exact both_iteratorCall hR hinherited hpart name hall hclear
  · exact both_iteratorCall hR hinherited hpart name hall hclear
  · exact both_iteratorCall hR hinherited hpart name hall hclear
  · exact both_iteratorCall hR hinherited hpart name hall hclear
  · split at hclear
    all_goals first
      | exact both_genericCall hR name hcarried hclear
      | exact absurd rfl (by assumption)

end Filters

end MeasureSql.Rendering
