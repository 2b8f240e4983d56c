import MeasureSql.Proofs.Render.Parts
import MeasureSql.Schema.Retail

/-!
# Parts do not interfere

What was rendered before an expression shows in the state, as warnings, as a lower confidence, as
tables and patterns used, and as the tables that the queries around it read.  None of this has any
influence on its SQL: it is decided by the filters and the rows.  So every part of an expression has
the SQL that it has alone, and a filtered expression beside another one is not affected by it.

## Main definitions

* `alone` — the SQL of an expression that is rendered first, in a context.
* `isolated` — the rendering of an expression that sees nothing but the context.

## Main results

* `inStep_renderExpr` — rendering is in step with itself.
* `renderExpr_eq_of_sameContext` — what the SQL of an expression and of its parts depends on.
-/

namespace MeasureSql.Rendering

open Dax

/-! ## Rendering in step -/

section Rules

variable {t : Target} {sub sub' : Expr → Rendering String}

theorem InStep.addCondition {m m' : Rendering String} (h : InStep m m')
    (column : Option ColumnRef) :
    InStep (addCondition t m column) (addCondition t m' column) := by
  refine h.bind fun condition => ?_
  cases column with
  | none => exact InStep.bind (.pure _) fun _ => .changeFilters _
  | some ref =>
    exact (inStep_resolveColumn t ref).bind fun _ => InStep.bind (.pure _) fun _ => .changeFilters _

/-- Rules keep the rendering of parts in step. -/
theorem respected_inStep (h : ∀ e, InStep (sub e) (sub' e)) :
    Respected t sub sub' fun _ m m' => InStep m m' where
  part := h
  aside _ hstep := hstep
  bind := .bind
  lessen _ := .changeFilters _
  condition e _ h := h.addCondition e.firstColumn?
  withRow row _ _ h := h.withRow row
  alongRow row _ _ h := h.alongRow row
  inTurn hm hn := hm.inTurn hn
  withScope h := h.withScope
  keepingFilters h := h.keepingFilters

end Rules

variable (t : Target)

theorem inStep_renderLevels (levels : Nat) (e : Expr) :
    InStep (renderLevels t levels e) (renderLevels t levels e) := by
  induction levels generalizing e with
  | zero => exact .pure _
  | succ levels ih => exact (respected_inStep ih).renderWith e

/-- **Rendering is in step with itself.** -/
theorem inStep_renderExpr (e : Expr) : InStep (renderExpr t e) (renderExpr t e) :=
  inStep_renderLevels t e.height e

/-! ## Parts by themselves -/

/-- The SQL of an expression that is rendered first, under some filters and in some rows. -/
def alone (filters : FilterContext) (rows : List String) (e : Expr) : Except TemplateError String :=
  (renderExpr t e { filters := filters, rowTables := rows }).1

/-- An expression rendered with nothing known of the state but the context; all that comes back
beside the SQL are the tables that were read. -/
def isolated (e : Expr) : Rendering String := fun s =>
  let run := renderExpr t e { filters := s.filters, rowTables := s.rowTables, scopes := [[]] }
  (run.1, { s with scopes := readAlso (run.2.scopes.headD []) s.scopes })

/-- Tables that were recorded once are recorded the same again. -/
theorem foldl_addNew_foldl_addNew (xs ys zs : List String) :
    (zs.foldl addNew ys).foldl addNew xs = zs.foldl addNew (ys.foldl addNew xs) := by
  induction zs generalizing ys with
  | nil => rfl
  | cons z zs ih =>
    have hz : (addNew ys z).foldl addNew xs = addNew (ys.foldl addNew xs) z := by
      by_cases hmem : z ∈ ys
      · rw [addNew_of_mem hmem, addNew_of_mem (mem_foldl_addNew.mpr (.inr hmem))]
      · simp [addNew, hmem, List.foldl_append]
    rw [List.foldl_cons, List.foldl_cons, ih, hz]

/-- **The rendering of a part is in step with that of the part alone.** -/
theorem inStep_isolated (e : Expr) : InStep (renderExpr t e) (isolated t e) := by
  intro s s' hs
  obtain ⟨sql, u, u', tables, hrun, hrun', hu, hscopes, hscopes'⟩ | ⟨err, u, u', hrun, hrun'⟩ :=
    inStep_renderExpr t e s { filters := s'.filters, rowTables := s'.rowTables, scopes := [[]] }
      ⟨hs.filters, hs.rows⟩
  · have hleads := led_renderExpr t e s
    rw [hrun] at hleads
    have htables : readAlso (u'.scopes.headD []) s'.scopes = readAlso tables s'.scopes := by
      rw [hscopes']
      cases s'.scopes with
      | nil => rfl
      | cons scope outer => simp [readAlso, foldl_addNew_foldl_addNew]
    refine .inl ⟨sql, u, { s' with scopes := readAlso tables s'.scopes }, tables, hrun, ?_,
      ⟨hleads.filters_eq.trans hs.filters, hleads.rowTables_eq.trans hs.rows⟩, hscopes, rfl⟩
    simp only [isolated, hrun', htables]
  · exact .inr ⟨err, u, _, hrun, by simp only [isolated, hrun']; rfl⟩

/-- Arguments one after the other have the SQL that each has alone. -/
theorem renderAll_eq_mapM (es : List Expr) (s : RenderState) :
    (renderAll (renderExpr t) es s).1 = es.mapM (alone t s.filters s.rowTables) := by
  induction es generalizing s with
  | nil => rfl
  | cons e es ih =>
    have halone : (renderExpr t e s).1 = alone t s.filters s.rowTables e :=
      (inStep_renderExpr t e).result_eq ⟨rfl, rfl⟩
    rw [List.mapM_cons, ← halone, renderAll, run_bind]
    rcases hrun : renderExpr t e s with ⟨err | sql, s₁⟩
    · rfl
    · have hleads := (led_renderExpr t e).of_ok hrun
      have hrest := ih s₁
      rw [hleads.filters_eq, hleads.rowTables_eq] at hrest
      rw [← hrest]
      dsimp only
      rw [run_bind]
      rcases renderAll (renderExpr t) es s₁ with ⟨err | sqls, s₂⟩
      · rfl
      · rfl

/-- **What the SQL of an expression depends on.**  From states with the same filters and rows the
SQL is the same, or the error is.  It is also the same when every part of the expression is rendered
in isolation, and when the arguments before it are left out. -/
theorem renderExpr_eq_of_sameContext (e : Expr) (s s' : RenderState)
    (hfilters : s.filters = s'.filters) (hrows : s.rowTables = s'.rowTables) :
    (renderExpr t e s).1 = (renderExpr t e s').1 ∧
      (renderWith t (isolated t) e s).1 = (renderExpr t e s).1 ∧
      ∀ es : List Expr, (renderAll (renderExpr t) es s).1 =
        es.mapM (alone t s.filters s.rowTables) := by
  refine ⟨(inStep_renderExpr t e).result_eq ⟨hfilters, hrows⟩, ?_,
    fun es => renderAll_eq_mapM t es s⟩
  have hparts := (respected_inStep (t := t) (inStep_isolated t)).renderWith e
  rw [renderExpr_eq]
  exact (hparts.result_eq (.refl s)).symm

/-- The sales of a region have the same SQL at the beginning and after all kinds of things have been
rendered. -/
theorem renderExpr_sales_of_region :
    let t : Target := ⟨some .retail, .builtin, .snowflake⟩
    let region : Expr :=
      .binary (.column ⟨some "Store", "Region"⟩) .equals (.literal (.string "West"))
    let sales : Expr := .call "CALCULATE" [.call "SUM" [.column ⟨some "Sales", "Amount"⟩], region]
    let later : RenderState := {
      scopes := [["dim_date"]]
      confidence := .low
      patternsApplied := ["YEAR"]
      tablesUsed := ["dim_date"]
      warnings := ["Unknown function AGE: emitted as a plain SQL call"] }
    (renderExpr t sales {}).1 = (renderExpr t sales later).1 ∧
      (renderExpr t sales later).1.toOption =
        some ("(SELECT SUM(sales.amount) FROM sales JOIN dim_store "
          ++ "ON sales.store_key = dim_store.store_key WHERE dim_store.region = 'West')") := by
  intro t region sales later
  refine ⟨(renderExpr_eq_of_sameContext t sales {} later rfl rfl).1, ?_⟩
  dsimp only [t]
  rw [PatternLibrary.builtin_eq]
  decide +kernel

end MeasureSql.Rendering
