import MeasureSql.Proofs.FilterContext
import MeasureSql.Proofs.Render.InStep

/-!
# Rules and the rendering of parts

Every rule is given the rendering of parts and puts it together with steps of its own.  So a
relation between computations that holds of the rendering of parts, and is kept by all the ways to
put computations together, holds of the rules.  What is true of two ways to render parts then
carries over to whole expressions, and no rule has to be looked at again.

## Main definitions

* `Lessens` — changes of the filters that only take conditions away.
* `Respected` — relations that the ways to put computations together keep.

## Main results

* `Respected.renderWith` — one level of rendering.
* `Respected.renderLevels` — whole expressions.
-/

namespace MeasureSql.Rendering

open Dax

/-- The change of the filters takes conditions away and adds none. -/
structure Lessens (f : FilterContext → FilterContext) : Prop where
  entries (filters : FilterContext) : (f filters).entries ⊆ filters.entries
  intact {filters : FilterContext} (h : filters.Intact) : (f filters).Intact

theorem lessens_empty : Lessens fun _ => .empty where
  entries _ := List.nil_subset _
  intact _ := FilterContext.intact_empty

theorem lessens_removeTable (table : String) : Lessens (·.removeTable table) where
  entries _ := List.filter_sublist.subset
  intact h := h.removeTable table

theorem lessens_removeColumn (table column : String) : Lessens (·.removeColumn table column) where
  entries _ := List.filter_sublist.subset
  intact h := h.removeColumn table column

theorem lessens_keepOnly (table : String) (columns : List String) :
    Lessens (·.keepOnly table columns) where
  entries _ := List.filter_sublist.subset
  intact h := h.keepOnly table columns

/-- The relation is kept by all that a rule does with the rendering of parts: it takes steps of its
own, which leave the filters alone and depend on the context only, it takes filters away and puts
the condition of an expression to them under its first column, and it goes into rows and queries. -/
structure Respected (t : Target) (sub sub' : Expr → Rendering String)
    (R : (α : Type) → Rendering α → Rendering α → Prop) : Prop where
  part (e : Expr) : R String (sub e) (sub' e)
  aside {α : Type} {m : Rendering α} (hled : Led false m) (hstep : InStep m m) : R α m m
  bind {α β : Type} {m m' : Rendering α} {f f' : α → Rendering β} (hm : R α m m')
    (hf : ∀ a, R β (f a) (f' a)) : R β (m >>= f) (m' >>= f')
  lessen {f : FilterContext → FilterContext} (hf : Lessens f) :
    R Unit (changeFilters f) (changeFilters f)
  condition {m m' : Rendering String} (e : Expr)
    (hm : m = sub e ∧ m' = sub' e ∨ m = renderWith t sub e ∧ m' = renderWith t sub' e)
    (h : R String m m') :
    R Unit (addCondition t m e.firstColumn?) (addCondition t m' e.firstColumn?)
  withRow {α : Type} (row : Option String) {act act' : Rendering α} (h : R α act act') :
    R α (withRow row act) (withRow row act')
  alongRow {α : Type} (row : Option String) {act act' : Rendering α} (h : R α act act') :
    R α (alongRow row act) (alongRow row act')
  inTurn {α β : Type} {m m' : Rendering α} {n n' : Rendering β} (hm : R α m m') (hn : R β n n') :
    R (α × β) (inTurn m n) (inTurn m' n')
  withScope {α : Type} {act act' : Rendering α} (h : R α act act') :
    R (α × List String) (withScope act) (withScope act')
  keepingFilters {α : Type} {act act' : Rendering α} (h : R α act act') :
    R α (keepingFilters act) (keepingFilters act')

namespace Respected

variable {t : Target} {sub sub' : Expr → Rendering String}
  {R : (α : Type) → Rendering α → Rendering α → Prop}

theorem pure (h : Respected t sub sub' R) {α : Type} (a : α) : R α (Pure.pure a) (Pure.pure a) :=
  h.aside (.pure a) (.pure a)

theorem note (h : Respected t sub sub' R) {level : Confidence} (hlevel : level ≠ .high)
    (warning : String) : R Unit (note level warning) (note level warning) :=
  h.aside (led_note hlevel warning) (inStep_note level warning)

theorem usePattern (h : Respected t sub sub' R) (p : Pattern) :
    R Unit (usePattern t p) (usePattern t p) :=
  h.aside (led_usePattern t p) (inStep_usePattern t p)

theorem usePatternNamed (h : Respected t sub sub' R) (name : String) :
    R Unit (usePatternNamed t name) (usePatternNamed t name) :=
  h.aside (led_usePatternNamed t name) (inStep_usePatternNamed t name)

theorem resolveTable (h : Respected t sub sub' R) (name : String) :
    R String (resolveTable t name) (resolveTable t name) :=
  h.aside (led_resolveTable t name) (inStep_resolveTable t name)

theorem resolveColumn (h : Respected t sub sub' R) (ref : ColumnRef) :
    R ResolvedColumn (resolveColumn t ref) (resolveColumn t ref) :=
  h.aside (led_resolveColumn t ref) (inStep_resolveColumn t ref)

theorem fillPattern (h : Respected t sub sub' R) (p : Pattern) (bindings : Bindings) :
    R String (fillPattern t p bindings) (fillPattern t p bindings) :=
  h.aside (led_fillPattern t p bindings) (inStep_fillPattern t p bindings)

theorem applyPattern (h : Respected t sub sub' R) (p : Pattern) (args : List String)
    (table : Option String) :
    R String (applyPattern t p args table) (applyPattern t p args table) :=
  h.aside (led_applyPattern t p args table) (inStep_applyPattern t p args table)

/-! ## Calls -/

theorem renderAll (h : Respected t sub sub' R) (es : List Expr) :
    R (List String) (renderAll sub es) (renderAll sub' es) := by
  induction es with
  | nil => exact h.pure _
  | cons e es ih => exact h.bind (h.part e) fun _ => h.bind ih fun _ => h.pure _

theorem tableArgument (h : Respected t sub sub' R) (e : Expr) :
    R (String × Option String) (tableArgument t sub e) (tableArgument t sub' e) := by
  cases e with
  | table name => exact h.bind (h.resolveTable name) fun _ => h.pure _
  | _ => exact h.bind (h.part _) fun _ => h.pure _

theorem plainCall (h : Respected t sub sub' R) (name : String) (args : List Expr) :
    R String (plainCall t sub name args) (plainCall t sub' name args) :=
  h.bind (h.renderAll args) fun _ => h.pure _

theorem unknownCall (h : Respected t sub sub' R) (name : String) (args : List Expr) :
    R String (unknownCall t sub name args) (unknownCall t sub' name args) :=
  h.bind (h.note (by decide) _) fun _ => h.plainCall name args

theorem malformedCall (h : Respected t sub sub' R) (name : String) (args : List Expr)
    (usage : String) :
    R String (malformedCall t sub name args usage) (malformedCall t sub' name args usage) :=
  h.bind (h.note (by decide) _) fun _ => h.plainCall name args

theorem genericArgs (h : Respected t sub sub' R) (params : List String) (table : Option String)
    (args : List Expr) : R (List String × Option String) (genericArgs t sub params table args)
      (genericArgs t sub' params table args) := by
  induction args generalizing params table with
  | nil => exact h.pure _
  | cons arg args ih =>
    cases arg with
    | column ref =>
      exact h.bind (h.resolveColumn ref) fun _ => h.bind (h.pure _) fun _ =>
        h.bind (ih _ _) fun _ => h.pure _
    | _ =>
      exact h.bind (h.part _) fun _ => h.bind (h.pure _) fun _ =>
        h.bind (ih _ _) fun _ => h.pure _

theorem genericCall (h : Respected t sub sub' R) (name : String) (args : List Expr) :
    R String (genericCall t sub name args) (genericCall t sub' name args) := by
  unfold Rendering.genericCall
  cases t.patterns.get? name with
  | none => exact h.unknownCall name args
  | some p => exact h.bind (h.genericArgs _ _ args) fun _ => h.applyPattern p _ _

/-- The value that an iterator computes on each row, behind its condition. -/
theorem guarded (h : Respected t sub sub' R) (expression : Expr) (condition : Option Expr) :
    R String (guarded sub expression condition) (guarded sub' expression condition) := by
  cases condition with
  | none => exact h.part expression
  | some c => exact h.bind (h.inTurn (h.part expression) (h.part c)) fun _ => h.pure _

theorem iteratorCall (h : Respected t sub sub' R) (name : String) (args : List Expr) :
    R String (iteratorCall t sub name args) (iteratorCall t sub' name args) := by
  unfold Rendering.iteratorCall
  cases t.patterns.get? name with
  | none => exact h.unknownCall name args
  | some p =>
    rcases args with _ | ⟨source, _ | ⟨expression, rest⟩⟩
    · exact h.malformedCall name _ _
    · exact h.malformedCall name _ _
    · have hrows : R String (overRows t sub p source expression rest)
          (overRows t sub' p source expression rest) :=
        h.bind (h.tableArgument _) fun a => h.bind (h.withRow a.2 (h.guarded _ _)) fun _ =>
          h.bind (h.renderAll rest) fun _ => h.applyPattern p _ _
      dsimp only
      split
      · exact h.bind (h.usePatternNamed _) fun _ => hrows
      · exact hrows

theorem switchCases (h : Respected t sub sub' R) (args : List Expr) :
    R (List String) (switchCases sub args) (switchCases sub' args) := by
  fun_induction Rendering.switchCases sub args with
  | case1 => exact h.pure _
  | case2 last => exact h.bind (h.part last) fun _ => h.pure _
  | case3 value result rest ih =>
    exact h.bind (h.part value) fun _ => h.bind (h.part result) fun _ =>
      h.bind ih fun _ => h.pure _

theorem switchCall (h : Respected t sub sub' R) (name : String) (args : List Expr) :
    R String (switchCall t sub name args) (switchCall t sub' name args) := by
  rcases args with _ | ⟨subject, _ | ⟨first, _ | ⟨second, rest⟩⟩⟩
  · exact h.malformedCall name _ _
  · exact h.malformedCall name _ _
  · exact h.malformedCall name _ _
  · refine h.bind (h.switchCases _) fun cases => ?_
    dsimp only
    split
    · exact h.bind (h.usePatternNamed _) fun _ => h.pure _
    · refine h.bind (h.part subject) fun _ => ?_
      cases t.patterns.get? "SWITCH" with
      | some p => exact h.bind (h.usePattern p) fun _ => h.fillPattern p _
      | none => exact h.pure _

theorem projected (h : Respected t sub sub' R) (args : List Expr) :
    R (List String × List String) (projected t sub args) (projected t sub' args) := by
  fun_induction Rendering.projected t sub args with
  | case1 => exact h.pure _
  | case2 label value rest ih =>
    exact h.bind (h.part value) fun _ => h.bind ih fun _ => h.pure _
  | case3 other rest hne ih =>
    rw [projected.eq_3 _ _ _ _ hne]
    exact h.bind (h.part other) fun _ => h.bind ih fun _ => h.pure _

theorem projectionCall (h : Respected t sub sub' R) (name : String) (args : List Expr) :
    R String (projectionCall t sub name args) (projectionCall t sub' name args) := by
  unfold Rendering.projectionCall
  cases t.patterns.get? name with
  | none => exact h.unknownCall name args
  | some p =>
    cases args with
    | nil => exact h.malformedCall name _ _
    | cons source rest =>
      refine h.bind (h.tableArgument source) fun a => ?_
      refine h.bind (h.alongRow a.2 (h.projected rest)) fun b => ?_
      refine h.bind (h.usePattern p) fun _ => ?_
      dsimp only
      split
      · split
        · exact h.pure _
        · split
          · exact h.pure _
          · split
            · exact h.pure _
            · exact h.fillPattern p _
      · split
        · exact h.pure _
        · exact h.fillPattern p _

/-! ## Filters -/

theorem removeTarget (h : Respected t sub sub' R) (e : Expr) :
    R Unit (removeTarget t e) (removeTarget t e) := by
  cases e with
  | table name => exact h.bind (h.resolveTable name) fun _ => h.lessen (lessens_removeTable _)
  | column ref =>
    refine h.bind (h.resolveColumn ref) fun resolved => ?_
    cases resolved.table with
    | none => exact h.pure _
    | some table => exact h.lessen (lessens_removeColumn _ _)
  | _ => exact h.pure _

theorem removeTargets (h : Respected t sub sub' R) (args : List Expr) :
    R Unit (args.forM (Rendering.removeTarget t)) (args.forM (Rendering.removeTarget t)) := by
  induction args with
  | nil => exact h.pure _
  | cons arg args ih => exact h.bind (h.removeTarget arg) fun _ => ih

theorem keptColumns (h : Respected t sub sub' R) (es : List Expr) :
    R (List String) (keptColumns t es) (keptColumns t es) := by
  fun_induction Rendering.keptColumns t es with
  | case1 => exact h.pure _
  | case2 ref rest ih => exact h.bind (h.resolveColumn ref) fun _ => h.bind ih fun _ => h.pure _
  | case3 e rest hne ih => exact ih

theorem keepOnly (h : Respected t sub sub' R) (es : List Expr) :
    R Unit (keepOnly t es) (keepOnly t es) := by
  rcases es with _ | ⟨e, columns⟩
  · exact h.pure _
  · cases e with
    | table name =>
      exact h.bind (h.resolveTable name) fun _ => h.bind (h.keptColumns columns) fun _ =>
        h.lessen (lessens_keepOnly _ _)
    | _ =>
      unfold Rendering.keepOnly
      exact h.removeTarget _

mutual

theorem applyFilter (h : Respected t sub sub' R) :
    ∀ e : Expr, R Unit (applyFilter t sub e) (applyFilter t sub' e)
  | .call name args => by
    have hcondition := h.condition (.call name args) (.inl ⟨rfl, rfl⟩) (h.part _)
    have hfilters := h.applyFilters args
    have hremove : R Unit
        (do
          Rendering.usePatternNamed t name
          if args.isEmpty then
            changeFilters fun _ => .empty
          args.forM (Rendering.removeTarget t))
        (do
          Rendering.usePatternNamed t name
          if args.isEmpty then
            changeFilters fun _ => .empty
          args.forM (Rendering.removeTarget t)) := by
      refine h.bind (h.usePatternNamed name) fun _ => ?_
      split
      · exact h.bind (h.lessen lessens_empty) fun _ => h.removeTargets args
      · exact h.removeTargets args
    unfold Rendering.applyFilter
    generalize Text.asciiUpper name = upper
    split
    · exact hremove
    · exact hremove
    · exact h.bind (h.usePatternNamed _) fun _ => h.keepOnly args
    · exact h.bind (h.usePatternNamed _) fun _ => hfilters
    · rcases args with _ | ⟨table, _ | ⟨predicate, _ | ⟨third, rest⟩⟩⟩
      · exact hcondition
      · exact hcondition
      · exact h.bind (h.usePatternNamed _) fun _ => h.bind (h.tableArgument table) fun a =>
          h.withRow a.2 (h.condition predicate (.inl ⟨rfl, rfl⟩) (h.part predicate))
      · exact hcondition
    · exact hcondition
  | .literal _ | .column _ | .table _ | .binary _ _ _ | .unary _ _ | .variable _ _ | .cond _ _ _
  | .measure _ _ _ _ => by
    unfold Rendering.applyFilter
    exact h.condition _ (.inl ⟨rfl, rfl⟩) (h.part _)

theorem applyFilters (h : Respected t sub sub' R) :
    ∀ es : List Expr, R Unit (applyFilters t sub es) (applyFilters t sub' es)
  | [] => h.pure _
  | e :: es => h.bind (h.applyFilter e) fun _ => h.applyFilters es

end

theorem subquery (h : Respected t sub sub' R) {name : String} {apply apply' : Rendering Unit}
    {expression expression' : Rendering String} (happly : R Unit apply apply')
    (hexpression : R String expression expression') :
    R String (subquery t name apply expression) (subquery t name apply' expression') := by
  have hread : ∀ g : FilterContext → String × List String × String,
      R _ (do Pure.pure (g (← get).filters)) (do Pure.pure (g (← get).filters)) := fun g =>
    h.aside (Led.bind led_get fun _ => .pure _) (InStep.get fun s s' hs => hs.filters ▸ .pure _)
  refine h.bind (h.keepingFilters (h.bind (h.withScope happly) fun _ =>
    h.bind (h.withScope hexpression) fun a =>
      h.bind (h.aside (led_forM led_useTable) (inStep_forM_useTable a.2)) fun _ =>
        hread fun filters => (a.1, (t.filterTables filters).foldl addNew a.2,
          filters.whereClause))) fun b => ?_
  have hnamed := h.bind (h.usePatternNamed name) fun _ => h.pure b.1
  dsimp only
  split
  · split
    · exact hnamed
    · exact h.bind (h.note (by decide) _) fun _ => hnamed
  · refine h.bind (h.aside (led_fromClause t _) (inStep_fromClause t _)) fun _ => ?_
    cases t.patterns.get? name with
    | some p => exact h.bind (h.usePattern p) fun _ => h.fillPattern p _
    | none => exact h.pure _

theorem filteredCall (h : Respected t sub sub' R) (name : String) (args : List Expr) :
    R String (filteredCall t sub name args) (filteredCall t sub' name args) := by
  cases args with
  | nil => exact h.malformedCall name _ _
  | cons expression filters => exact h.subquery (h.applyFilters filters) (h.part expression)

/-- The dates of a period are a call of a function without a rule of its own. -/
theorem renderWith_period (sub : Expr → Rendering String) (upper : String) (dates : Expr) :
    Rendering.renderWith t sub (.call (periodOf upper) [dates]) =
      Rendering.genericCall t sub (periodOf upper) [dates] := by
  unfold periodOf
  split <;> rfl

theorem totalToDateCall (h : Respected t sub sub' R) (name : String) (args : List Expr) :
    R String (totalToDateCall t sub name args) (totalToDateCall t sub' name args) := by
  rcases args with _ | ⟨expression, _ | ⟨dates, filters⟩⟩
  · exact h.malformedCall name _ _
  · exact h.malformedCall name _ _
  · let period : Expr := .call (periodOf (Text.asciiUpper name)) [dates]
    have hperiod : period.firstColumn? = dates.firstColumn? := by
      simp [period, Expr.firstColumn?, Expr.firstColumnOf?]
    have hdates := h.condition period (.inr ⟨(renderWith_period _ _ _).symm,
      (renderWith_period _ _ _).symm⟩) (h.genericCall _ _)
    rw [hperiod] at hdates
    exact h.subquery (h.bind hdates fun _ => h.applyFilters filters) (h.part expression)

theorem renderCall (h : Respected t sub sub' R) (name : String) (args : List Expr) :
    R String (renderCall t sub name args) (renderCall t sub' name args) := by
  unfold Rendering.renderCall
  generalize Text.asciiUpper name = upper
  split
  all_goals first
    | exact h.filteredCall name args
    | exact h.totalToDateCall name args
    | exact h.switchCall name args
    | exact h.projectionCall name args
    | exact h.iteratorCall name args
    | exact h.genericCall name args

/-! ## Expressions -/

theorem renderOperand (h : Respected t sub sub' R) (e : Expr) (parent : Nat) (onRight : Bool) :
    R String (renderOperand sub e parent onRight) (renderOperand sub' e parent onRight) :=
  h.bind (h.part e) fun _ => h.pure _

theorem renderBinary (h : Respected t sub sub' R) (l : Expr) (op : BinaryOp) (r : Expr) :
    R String (renderBinary t sub l op r) (renderBinary t sub' l op r) := by
  unfold Rendering.renderBinary
  split
  · exact h.bind (h.renderOperand _ _ _) fun _ => h.pure _
  · split
    · exact h.bind (h.part l) fun _ => h.bind (h.part r) fun _ => h.pure _
    · refine h.bind (h.renderOperand _ _ _) fun _ => h.bind (h.renderOperand _ _ _) fun _ => ?_
      split
      · split <;> exact h.pure _
      · exact h.pure _

/-- **One level of rendering**: what holds of the parts holds of the whole. -/
theorem renderWith (h : Respected t sub sub' R) (e : Expr) :
    R String (renderWith t sub e) (renderWith t sub' e) := by
  cases e with
  | literal value => exact h.pure _
  | column ref => exact h.bind (h.resolveColumn ref) fun _ => h.pure _
  | table name =>
    show R String (renderTable t name) (renderTable t name)
    unfold renderTable
    dsimp only
    split
    · exact h.pure _
    · split
      · exact h.pure _
      · exact h.bind (h.resolveTable name) fun _ => h.pure _
  | call name args => exact h.renderCall name args
  | binary l op r => exact h.renderBinary l op r
  | unary op e =>
    refine h.bind (h.part e) fun _ => ?_
    cases op with
    | negate => exact h.pure _
    | not => exact h.pure _
  | «variable» name value =>
    cases value with
    | none => exact h.bind (h.note (by decide) _) fun _ => h.pure _
    | some value => exact h.bind (h.part value) fun _ => h.pure _
  | cond c a e =>
    refine h.bind (h.part c) fun _ => h.bind (h.part a) fun _ => h.bind (h.renderAll _) fun _ => ?_
    cases t.patterns.get? "IF" with
    | some p => exact h.applyPattern p _ _
    | none => exact h.pure _
  | measure name body format description => exact h.bind (h.part body) fun _ => h.pure _

end Respected

end MeasureSql.Rendering
