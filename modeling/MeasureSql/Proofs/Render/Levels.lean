import MeasureSql.Proofs.Dax.Children
import MeasureSql.Render.Expr

/-!
# Levels play no part

Rendering goes down an expression by levels, and a rule renders nothing but parts of the expression
it is given.  So it makes no difference by how many levels the parts are rendered, as long as these
are enough, and rendering an expression is one level of it on top of the rendering of its parts.

## Main definitions

* `overRows` — what an iterator does with the rows of its source.
* `AgreeBelow` — two ways to render parts agree up to some height.

## Main results

* `iteratorCall_rows` — an iterator goes through the rows of its source.
* `renderWith_congr` — one level depends on the rendering of lower parts only.
* `renderLevels_eq` — enough levels are as good as any.
* `renderExpr_eq` — an expression is rendered by one level on top of its parts.
-/

namespace MeasureSql.Rendering

open Dax

/-! ## Heights -/

/-- An expression has at least one level. -/
theorem height_pos (e : Expr) : 0 < e.height := by
  cases e <;> simp [Expr.height]

/-- A filtered table and its condition are lower than the source of the rows. -/
theorem height_iterated {source : Expr} {n : Nat} (h : source.height ≤ n) :
    (iterated source).1.height ≤ n ∧ ∀ c, (iterated source).2 = some c → c.height ≤ n := by
  unfold iterated
  split
  · next f table condition =>
    simp only [Expr.height, Expr.heightAll] at h
    split
    · refine ⟨show table.height ≤ n by omega, fun c hc => ?_⟩
      cases hc
      omega
    · exact ⟨by simpa only [Expr.height, Expr.heightAll] using h, fun c hc => by cases hc⟩
  · exact ⟨h, fun c hc => by cases hc⟩

/-! ## Iterators -/

/-- A pattern is filled for the rows of a source. -/
def overRows (t : Target) (sub : Expr → Rendering String) (p : Pattern)
    (source expression : Expr) (rest : List Expr) : Rendering String := do
  let (tableSql, row) ← tableArgument t sub (iterated source).1
  let value ← withRow row (guarded sub expression (iterated source).2)
  let rest ← renderAll sub rest
  applyPattern t p (tableSql :: value :: rest) row

/-- **An iterator** fills its pattern for the rows of its source, and a condition on the rows counts
as a pattern of its own. -/
theorem iteratorCall_rows {t : Target} {name : String} {p : Pattern}
    (hget : t.patterns.get? name = some p) (sub : Expr → Rendering String)
    (source expression : Expr) (rest : List Expr) :
    iteratorCall t sub name (source :: expression :: rest) =
      if (iterated source).2.isSome then
        usePatternNamed t "FILTER" >>= fun _ => overRows t sub p source expression rest
      else overRows t sub p source expression rest := by
  simp only [iteratorCall, hget]
  rfl

/-- A call of an iterator has no pattern, or lacks an expression, or goes through rows. -/
theorem iteratorCall_cases (t : Target) (sub : Expr → Rendering String) (name : String)
    (args : List Expr) :
    iteratorCall t sub name args = unknownCall t sub name args ∨
      iteratorCall t sub name args =
        malformedCall t sub name args "a table and an expression" ∨
      ∃ p source expression rest, t.patterns.get? name = some p ∧
        args = source :: expression :: rest := by
  cases hget : t.patterns.get? name with
  | none => exact .inl (by simp only [iteratorCall, hget])
  | some p =>
    rcases args with _ | ⟨source, _ | ⟨expression, rest⟩⟩
    · exact .inr (.inl (by simp only [iteratorCall, hget]))
    · exact .inr (.inl (by simp only [iteratorCall, hget]))
    · exact .inr (.inr ⟨p, source, expression, rest, rfl, rfl⟩)

/-! ## Rules -/

/-- Two ways to render parts agree up to some height. -/
def AgreeBelow (sub sub' : Expr → Rendering String) (n : Nat) : Prop :=
  ∀ e : Expr, e.height ≤ n → sub e = sub' e

section Rules

variable {t : Target} {sub sub' : Expr → Rendering String} {n : Nat}

theorem renderAll_congr (hsub : AgreeBelow sub sub' n) {es : List Expr}
    (h : Expr.heightAll es ≤ n) : renderAll sub es = renderAll sub' es := by
  induction es with
  | nil => rfl
  | cons e es ih =>
    simp only [Expr.heightAll] at h
    simp only [renderAll, hsub e (by omega), ih (by omega)]

theorem tableArgument_congr (hsub : AgreeBelow sub sub' n) {e : Expr} (h : e.height ≤ n) :
    tableArgument t sub e = tableArgument t sub' e := by
  cases e with
  | table name => rfl
  | _ => simp only [tableArgument, hsub _ h]

theorem plainCall_congr (hsub : AgreeBelow sub sub' n) (name : String) {args : List Expr}
    (h : Expr.heightAll args ≤ n) : plainCall t sub name args = plainCall t sub' name args := by
  simp only [plainCall, renderAll_congr hsub h]

theorem unknownCall_congr (hsub : AgreeBelow sub sub' n) (name : String) {args : List Expr}
    (h : Expr.heightAll args ≤ n) : unknownCall t sub name args = unknownCall t sub' name args := by
  simp only [unknownCall, plainCall_congr hsub name h]

theorem malformedCall_congr (hsub : AgreeBelow sub sub' n) (name : String) {args : List Expr}
    (usage : String) (h : Expr.heightAll args ≤ n) :
    malformedCall t sub name args usage = malformedCall t sub' name args usage := by
  simp only [malformedCall, plainCall_congr hsub name h]

theorem genericArgs_congr (hsub : AgreeBelow sub sub' n) (params : List String)
    (table : Option String) {args : List Expr} (h : Expr.heightAll args ≤ n) :
    genericArgs t sub params table args = genericArgs t sub' params table args := by
  induction args generalizing params table with
  | nil => rfl
  | cons e args ih =>
    simp only [Expr.heightAll] at h
    have hrest : ∀ table, genericArgs t sub params.tail table args =
        genericArgs t sub' params.tail table args := fun table => ih _ table (by omega)
    have hsame : sub e = sub' e := hsub e (by omega)
    cases e with
    | column ref => simp only [genericArgs, hrest]
    | _ => simp only [genericArgs, hrest, hsame]

theorem genericCall_congr (hsub : AgreeBelow sub sub' n) (name : String) {args : List Expr}
    (h : Expr.heightAll args ≤ n) : genericCall t sub name args = genericCall t sub' name args := by
  simp only [genericCall, unknownCall_congr hsub name h, genericArgs_congr hsub _ _ h]

theorem guarded_congr (hsub : AgreeBelow sub sub' n) {expression : Expr}
    (h : expression.height ≤ n) {condition : Option Expr}
    (hcondition : ∀ c, condition = some c → c.height ≤ n) :
    guarded sub expression condition = guarded sub' expression condition := by
  unfold guarded
  rw [hsub expression h]
  cases condition with
  | none => rfl
  | some c => simp only [hsub c (hcondition c rfl)]

theorem iteratorCall_congr (hsub : AgreeBelow sub sub' n) (name : String) {args : List Expr}
    (h : Expr.heightAll args ≤ n) :
    iteratorCall t sub name args = iteratorCall t sub' name args := by
  cases hget : t.patterns.get? name with
  | none => simp only [iteratorCall, hget, unknownCall_congr hsub name h]
  | some p =>
    rcases args with _ | ⟨source, _ | ⟨expression, rest⟩⟩
    · simp only [iteratorCall, hget, malformedCall_congr hsub name _ h]
    · simp only [iteratorCall, hget, malformedCall_congr hsub name _ h]
    · simp only [Expr.heightAll] at h
      have hsource : source.height ≤ n := by omega
      obtain ⟨htable, hcondition⟩ := height_iterated hsource
      simp only [iteratorCall_rows hget, overRows, tableArgument_congr hsub htable,
        guarded_congr hsub (show expression.height ≤ n by omega) hcondition,
        renderAll_congr hsub (show Expr.heightAll rest ≤ n by omega)]

theorem switchCases_congr (hsub : AgreeBelow sub sub' n) {args : List Expr}
    (h : Expr.heightAll args ≤ n) : switchCases sub args = switchCases sub' args := by
  fun_induction switchCases sub args with
  | case1 => rfl
  | case2 last =>
    simp only [Expr.heightAll] at h
    simp only [switchCases, hsub last (by omega)]
  | case3 value result rest ih =>
    simp only [Expr.heightAll] at h
    simp only [switchCases, hsub value (by omega), hsub result (by omega), ih (by omega)]

theorem switchCall_congr (hsub : AgreeBelow sub sub' n) (name : String) {args : List Expr}
    (h : Expr.heightAll args ≤ n) : switchCall t sub name args = switchCall t sub' name args := by
  have hmalformed := fun usage => malformedCall_congr (t := t) hsub name usage h
  rcases args with _ | ⟨subject, _ | ⟨first, _ | ⟨second, rest⟩⟩⟩
  · simp only [switchCall, hmalformed]
  · simp only [switchCall, hmalformed]
  · simp only [switchCall, hmalformed]
  · have hcases : Expr.heightAll (first :: second :: rest) ≤ n := by
      simp only [Expr.heightAll] at h ⊢
      omega
    simp only [Expr.heightAll] at h
    simp only [switchCall, switchCases_congr hsub hcases, hsub subject (by omega)]

theorem projected_congr (hsub : AgreeBelow sub sub' n) {args : List Expr}
    (h : Expr.heightAll args ≤ n) : projected t sub args = projected t sub' args := by
  fun_induction projected t sub args with
  | case1 => rfl
  | case2 label value rest ih =>
    simp only [Expr.heightAll] at h
    simp only [projected, hsub value (by omega), ih (by omega)]
  | case3 other rest hne ih =>
    simp only [Expr.heightAll] at h
    rw [projected.eq_3 _ _ _ _ hne]
    simp only [hsub other (by omega), ih (by omega)]

theorem projectionCall_congr (hsub : AgreeBelow sub sub' n) (name : String) {args : List Expr}
    (h : Expr.heightAll args ≤ n) :
    projectionCall t sub name args = projectionCall t sub' name args := by
  cases args with
  | nil =>
    simp only [projectionCall, unknownCall_congr hsub name h, malformedCall_congr hsub name _ h]
  | cons source rest =>
    have hunknown := unknownCall_congr (t := t) hsub name h
    simp only [Expr.heightAll] at h
    simp only [projectionCall, hunknown, tableArgument_congr hsub (show source.height ≤ n by omega),
      projected_congr hsub (show Expr.heightAll rest ≤ n by omega)]

mutual

theorem applyFilter_congr (hsub : AgreeBelow sub sub' n) :
    ∀ e : Expr, e.height ≤ n → applyFilter t sub e = applyFilter t sub' e
  | .call name args, h => by
    have hcall := hsub _ h
    simp only [Expr.height] at h
    unfold applyFilter
    rw [hcall, applyFilters_congr hsub args (by omega)]
    rcases args with _ | ⟨table, _ | ⟨predicate, _ | ⟨third, rest⟩⟩⟩
    · rfl
    · rfl
    · simp only [Expr.heightAll] at h
      dsimp only
      rw [tableArgument_congr hsub (show table.height ≤ n by omega), hsub predicate (by omega)]
    · rfl
  | .literal _, h | .column _, h | .table _, h | .binary _ _ _, h | .unary _ _, h
  | .variable _ _, h | .cond _ _ _, h | .measure _ _ _ _, h => by
    unfold applyFilter
    rw [hsub _ h]

theorem applyFilters_congr (hsub : AgreeBelow sub sub' n) :
    ∀ es : List Expr, Expr.heightAll es ≤ n → applyFilters t sub es = applyFilters t sub' es
  | [], _ => rfl
  | e :: es, h => by
    simp only [Expr.heightAll] at h
    simp only [applyFilters, applyFilter_congr hsub e (by omega),
      applyFilters_congr hsub es (by omega)]

end

theorem filteredCall_congr (hsub : AgreeBelow sub sub' n) (name : String) {args : List Expr}
    (h : Expr.heightAll args ≤ n) :
    filteredCall t sub name args = filteredCall t sub' name args := by
  cases args with
  | nil => simp only [filteredCall, malformedCall_congr hsub name _ h]
  | cons expression filters =>
    simp only [Expr.heightAll] at h
    simp only [filteredCall, applyFilters_congr hsub filters (by omega),
      hsub expression (by omega)]

theorem totalToDateCall_congr (hsub : AgreeBelow sub sub' n) (name : String) {args : List Expr}
    (h : Expr.heightAll args ≤ n) :
    totalToDateCall t sub name args = totalToDateCall t sub' name args := by
  rcases args with _ | ⟨expression, _ | ⟨dates, filters⟩⟩
  · simp only [totalToDateCall, malformedCall_congr hsub name _ h]
  · simp only [totalToDateCall, malformedCall_congr hsub name _ h]
  · simp only [Expr.heightAll] at h
    have hdates : Expr.heightAll [dates] ≤ n := by
      simp only [Expr.heightAll]
      omega
    simp only [totalToDateCall, genericCall_congr hsub _ hdates,
      applyFilters_congr hsub filters (by omega), hsub expression (by omega)]

theorem renderCall_congr (hsub : AgreeBelow sub sub' n) (name : String) {args : List Expr}
    (h : Expr.heightAll args ≤ n) : renderCall t sub name args = renderCall t sub' name args := by
  unfold renderCall
  rw [filteredCall_congr hsub name h, totalToDateCall_congr hsub name h,
    switchCall_congr hsub name h, projectionCall_congr hsub name h, iteratorCall_congr hsub name h,
    genericCall_congr hsub name h]

theorem renderBinary_congr (hsub : AgreeBelow sub sub' n) {l r : Expr} (op : BinaryOp)
    (hl : l.height ≤ n) (hr : r.height ≤ n) :
    renderBinary t sub l op r = renderBinary t sub' l op r := by
  have hother : (if r.isBlank then l else r).height ≤ n := by
    split
    · exact hl
    · exact hr
  simp only [renderBinary, renderOperand, hsub l hl, hsub r hr, hsub _ hother]

theorem renderCond_congr (hsub : AgreeBelow sub sub' n) {c a : Expr} {e : Option Expr}
    (hc : c.height ≤ n) (ha : a.height ≤ n) (he : Expr.heightOpt e ≤ n) :
    renderCond t sub c a e = renderCond t sub' c a e := by
  have hrest : Expr.heightAll e.toList ≤ n := by
    cases e with
    | none => simp [Expr.heightAll]
    | some e => simpa [Expr.heightAll, Expr.heightOpt] using he
  simp only [renderCond, hsub c hc, hsub a ha, renderAll_congr hsub hrest]

/-- **One level depends on the rendering of lower parts only.** -/
theorem renderWith_congr (hsub : AgreeBelow sub sub' n) {e : Expr} (h : e.height ≤ n + 1) :
    renderWith t sub e = renderWith t sub' e := by
  cases e with
  | literal value => rfl
  | column ref => rfl
  | table name => rfl
  | call name args =>
    simp only [Expr.height] at h
    exact renderCall_congr hsub name (by omega)
  | binary l op r =>
    simp only [Expr.height] at h
    exact renderBinary_congr hsub op (by omega) (by omega)
  | unary op e =>
    simp only [Expr.height] at h
    simp only [renderWith, renderUnary, hsub e (by omega)]
  | «variable» name value =>
    cases value with
    | none => rfl
    | some value =>
      simp only [Expr.height, Expr.heightOpt] at h
      simp only [renderWith, renderVariable, hsub value (by omega)]
  | cond c a e =>
    simp only [Expr.height] at h
    exact renderCond_congr hsub (by omega) (by omega) (by omega)
  | measure name body format description =>
    simp only [Expr.height] at h
    simp only [renderWith, hsub body (by omega)]

end Rules

/-! ## Levels -/

variable {t : Target}

/-- Two bounds that both cover the height of an expression are the same to it. -/
theorem agreeBelow_renderLevels (n m : Nat) :
    AgreeBelow (renderLevels t n) (renderLevels t m) (min n m) := by
  induction n generalizing m with
  | zero => exact fun e h => absurd (height_pos e) (by omega)
  | succ n ih =>
    intro e h
    have hpos := height_pos e
    obtain ⟨m, rfl⟩ : ∃ k, m = k + 1 := ⟨m - 1, by omega⟩
    exact renderWith_congr (ih m) (by omega)

/-- **Enough levels are as good as any.** -/
theorem renderLevels_eq {e : Expr} {levels : Nat} (h : e.height ≤ levels) :
    renderLevels t levels e = renderExpr t e :=
  agreeBelow_renderLevels levels e.height e (by omega)

/-- **An expression is rendered by one level on top of its parts.** -/
theorem renderExpr_eq (t : Target) (e : Expr) : renderExpr t e = renderWith t (renderExpr t) e := by
  obtain ⟨n, hn⟩ : ∃ n, e.height = n + 1 := ⟨e.height - 1, by have := height_pos e; omega⟩
  have hparts : AgreeBelow (renderLevels t n) (renderExpr t) n :=
    fun c hc => renderLevels_eq hc
  rw [renderExpr, hn, renderLevels]
  exact renderWith_congr hparts (by omega)

end MeasureSql.Rendering
