import MeasureSql.Proofs.Render.Vouching

/-!
# What high confidence assures

Everything that is guessed or emitted as it stands lowers the confidence.  So an expression whose
SQL is of high confidence has been rendered without a guess: every function has a pattern, and every
table and column is one of the schema.  No part of the expression is passed over on the way to it,
because the only rules that look at a part without rendering it are those of the subqueries, and a
subquery is never of high confidence.

## Main definitions

* `VouchesBelow` — high confidence speaks for all expressions up to some height.

## Main results

* `vouches_renderExpr` — high confidence speaks for every node.
-/

namespace MeasureSql.Rendering

open Dax

section Rules

variable {t : Target} {sub : Expr → Rendering String} {n : Nat}

/-- Rendering what has at most some levels makes moves only, and high confidence speaks for all of
it. -/
structure VouchesBelow (t : Target) (sub : Expr → Rendering String) (levels : Nat) : Prop where
  led : ∀ e, Led false (sub e)
  vouches : ∀ e : Expr, e.height ≤ levels → Vouches (AllResolved t e.nodes) (sub e)

theorem vouches_renderAll (hsub : VouchesBelow t sub n) {es : List Expr}
    (h : Expr.heightAll es ≤ n) :
    Vouches (AllResolved t (Expr.nodesAll es)) (renderAll sub es) := by
  induction es with
  | nil => exact Ensures.pure (by simp [Expr.nodesAll])
  | cons e es ih =>
    simp only [Expr.heightAll] at h
    refine Vouches.imp (Vouches.bind (hsub.vouches e (by omega)) fun _ =>
      (ih (by omega)).bind_left fun _ => .pure _) ?_
    simp [Expr.nodesAll]

theorem vouches_tableArgument (hsub : VouchesBelow t sub n) {e : Expr} (h : e.height ≤ n) :
    Vouches (AllResolved t e.nodes) (tableArgument t sub e) := by
  unfold tableArgument
  split
  · next name =>
    refine ((vouches_resolveTable name).bind_left fun _ => .pure _).imp fun htable => ?_
    simpa [Expr.nodes, IsResolved] using .inl htable
  · exact (hsub.vouches _ h).bind_left fun _ => .pure _

/-- A call that is emitted as it stands vouches for anything. -/
theorem vouches_unknownCall {P : Prop} (hsub : VouchesBelow t sub n) (name : String)
    (args : List Expr) : Vouches P (unknownCall t sub name args) :=
  vouches_note_bind (by decide) _ fun _ => led_plainCall hsub.led name args

theorem vouches_malformedCall {P : Prop} (hsub : VouchesBelow t sub n) (name : String)
    (args : List Expr) (usage : String) : Vouches P (malformedCall t sub name args usage) :=
  vouches_note_bind (by decide) _ fun _ => led_plainCall hsub.led name args

theorem vouches_genericArgs (hsub : VouchesBelow t sub n) {args : List Expr}
    (params : List String) (table : Option String) (h : Expr.heightAll args ≤ n) :
    Vouches (AllResolved t (Expr.nodesAll args)) (genericArgs t sub params table args) := by
  induction args generalizing params table with
  | nil => exact Ensures.pure (by simp [Expr.nodesAll])
  | cons arg args ih =>
    simp only [Expr.heightAll] at h
    have hrest : ∀ (sql : String) (table : Option String),
        Vouches (AllResolved t (Expr.nodesAll args))
          (genericArgs t sub params.tail table args >>= fun rest =>
            Pure.pure (sql :: rest.1, rest.2)) := fun sql table =>
      (ih params.tail table (by omega)).bind_left fun _ => .pure _
    unfold genericArgs
    dsimp only
    split
    · next ref =>
      refine ((vouches_resolveColumn ref).bind fun _ => hrest _ _).imp ?_
      simp [Expr.nodesAll, Expr.nodes]
    · refine ((hsub.vouches arg (by omega)).bind fun _ => hrest _ _).imp ?_
      simp [Expr.nodesAll]

theorem vouches_genericCall (hsub : VouchesBelow t sub n) (name : String) {args : List Expr}
    (h : Expr.heightAll args ≤ n) :
    Vouches (AllResolved t (Expr.call name args).nodes) (genericCall t sub name args) := by
  rw [genericCall]
  split
  · exact vouches_unknownCall hsub name args
  · next p hget =>
    refine ((vouches_genericArgs hsub p.params none h).bind_left fun _ =>
      led_applyPattern t p _ _).imp fun hargs => ?_
    simpa [Expr.nodes, IsResolved, PatternLibrary.contains, hget] using hargs

/-- The functions with a rule of their own have patterns. -/
theorem contains_builtin {name word : String} (hword : Text.asciiUpper name = word)
    (hascii : word.toList.all Text.isAscii = true)
    (hmem : ∃ p ∈ Catalog.builtin, word = p.name) :
    PatternLibrary.builtin.contains name = true := by
  obtain ⟨p, hp, hname⟩ := hmem
  obtain ⟨q, hq⟩ := PatternLibrary.exists_get?_builtin hp
    ((Text.upper_of_asciiUpper hword hascii).trans hname)
  simp [PatternLibrary.contains, hq]

/-- A filtered table is resolved with its table and its condition. -/
theorem allResolved_iterated (ht : t.patterns = .builtin) {source : Expr}
    (htable : AllResolved t (iterated source).1.nodes)
    (hcondition : ∀ c, (iterated source).2 = some c → AllResolved t c.nodes) :
    AllResolved t source.nodes := by
  unfold iterated at htable hcondition
  split at htable
  · next f table condition =>
    by_cases hf : Text.asciiUpper f = "FILTER"
    · have hcontains := contains_builtin hf rfl (by decide)
      simp only [hf, beq_self_eq_true, if_true, Option.some.injEq, forall_eq'] at htable hcondition
      simp [Expr.nodes, Expr.nodesAll, IsResolved, ht, hcontains, htable, hcondition]
    · simpa [hf] using htable
  · exact htable

/-- The value that an iterator computes on each row, behind its condition. -/
theorem vouches_guarded (hsub : VouchesBelow t sub n) {expression : Expr}
    (h : expression.height ≤ n) {condition : Option Expr}
    (hcondition : ∀ c, condition = some c → c.height ≤ n) :
    Vouches (AllResolved t expression.nodes ∧ ∀ c, condition = some c → AllResolved t c.nodes)
      (guarded sub expression condition) := by
  cases condition with
  | none => exact (hsub.vouches expression h).imp (by simp)
  | some c =>
    have hparts := (hsub.vouches expression h).inTurn (hsub.vouches c (hcondition c rfl))
    exact (hparts.bind_left fun _ => .pure _).imp (by simp)

theorem vouches_iteratorCall (ht : t.patterns = .builtin) (hsub : VouchesBelow t sub n)
    (name : String) {args : List Expr} (h : Expr.heightAll args ≤ n) :
    Vouches (AllResolved t (Expr.call name args).nodes) (iteratorCall t sub name args) := by
  obtain hunknown | hmalformed | ⟨p, source, expression, rest, hget, rfl⟩ :=
    iteratorCall_cases t sub name args
  · rw [hunknown]
    exact vouches_unknownCall hsub name args
  · rw [hmalformed]
    exact vouches_malformedCall hsub name args _
  · simp only [Expr.heightAll] at h
    have hsource : source.height ≤ n := by omega
    obtain ⟨htable, hcondition⟩ := height_iterated hsource
    have hguarded := vouches_guarded hsub (show expression.height ≤ n by omega) hcondition
    have hrows : Vouches (AllResolved t (Expr.call name (source :: expression :: rest)).nodes)
        (overRows t sub p source expression rest) := by
      refine ((vouches_tableArgument hsub htable).bind fun a =>
        (hguarded.withRow a.2).bind fun _ =>
          (vouches_renderAll hsub (show Expr.heightAll rest ≤ n by omega)).bind_left fun _ =>
            led_applyPattern t p _ _).imp ?_
      rintro ⟨hfirst, ⟨hexpression, hguard⟩, hrest⟩
      simp [Expr.nodes, Expr.nodesAll, IsResolved, PatternLibrary.contains, hget, hexpression,
        hrest, allResolved_iterated ht hfirst hguard]
    rw [iteratorCall_rows hget]
    exact .ite (Vouches.bind_right (led_usePatternNamed t _) fun _ => hrows) hrows

theorem vouches_switchCases (hsub : VouchesBelow t sub n) {args : List Expr}
    (h : Expr.heightAll args ≤ n) :
    Vouches (AllResolved t (Expr.nodesAll args)) (switchCases sub args) := by
  fun_induction switchCases sub args with
  | case1 => exact Ensures.pure (by simp [Expr.nodesAll])
  | case2 last =>
    simp only [Expr.heightAll] at h
    refine ((hsub.vouches last (by omega)).bind_left fun _ => .pure _).imp ?_
    simp [Expr.nodesAll]
  | case3 value result rest ih =>
    simp only [Expr.heightAll] at h
    refine ((hsub.vouches value (by omega)).bind fun _ =>
      (hsub.vouches result (by omega)).bind fun _ =>
        (ih (by omega)).bind_left fun _ => .pure _).imp ?_
    simp [Expr.nodesAll]

theorem vouches_switchCall (ht : t.patterns = .builtin) (hsub : VouchesBelow t sub n)
    {name : String} (hname : Text.asciiUpper name = "SWITCH") {args : List Expr}
    (h : Expr.heightAll args ≤ n) :
    Vouches (AllResolved t (Expr.call name args).nodes) (switchCall t sub name args) := by
  have hcontains := contains_builtin hname rfl (by decide)
  unfold switchCall
  split
  · next subject first second rest =>
    have hpairs : Expr.heightAll (first :: second :: rest) ≤ n := by
      simp only [Expr.heightAll] at h ⊢
      omega
    rw [Expr.heightAll] at h
    refine (Vouches.bind (Q := AllResolved t subject.nodes) (vouches_switchCases hsub hpairs)
      fun cases => ?_).imp ?_
    · dsimp only
      split
      · next htrue =>
        refine (Vouches.of_led ?_).imp fun _ => ?_
        · exact Led.bind (led_usePatternNamed t _) fun _ => .pure _
        unfold isTrue at htrue
        split at htrue
        · simp [Expr.nodes, IsResolved]
        · cases htrue
      · refine (hsub.vouches subject (by omega)).bind_left fun _ => ?_
        cases t.patterns.get? "SWITCH" with
        | some p => exact Led.bind (led_usePattern t p) fun _ => led_fillPattern t p _
        | none => exact .pure _
    · rintro ⟨hcases, hfirst⟩
      rw [Expr.nodes, Expr.nodesAll]
      simp [IsResolved, ht, hcontains, hfirst, hcases]
  · exact vouches_malformedCall hsub name args _

theorem vouches_projected (hsub : VouchesBelow t sub n) {args : List Expr}
    (h : Expr.heightAll args ≤ n) :
    Vouches (AllResolved t (Expr.nodesAll args)) (projected t sub args) := by
  fun_induction projected t sub args with
  | case1 => exact Ensures.pure (by simp [Expr.nodesAll])
  | case2 label value rest ih =>
    simp only [Expr.heightAll] at h
    refine ((hsub.vouches value (by omega)).bind fun _ =>
      (ih (by omega)).bind_left fun _ => .pure _).imp ?_
    simp [Expr.nodesAll, Expr.nodes, IsResolved]
  | case3 other rest hne ih =>
    simp only [Expr.heightAll] at h
    refine ((hsub.vouches other (by omega)).bind fun _ =>
      (ih (by omega)).bind_left fun _ => .pure _).imp ?_
    simp [Expr.nodesAll]

theorem vouches_projectionCall (hsub : VouchesBelow t sub n) (name : String) {args : List Expr}
    (h : Expr.heightAll args ≤ n) :
    Vouches (AllResolved t (Expr.call name args).nodes) (projectionCall t sub name args) := by
  rw [projectionCall]
  split
  · exact vouches_unknownCall hsub name args
  · next p hget =>
    split
    · exact vouches_malformedCall hsub name _ _
    · next source rest =>
      simp only [Expr.heightAll] at h
      refine ((vouches_tableArgument hsub (show source.height ≤ n by omega)).bind fun a =>
        ((vouches_projected hsub (show Expr.heightAll rest ≤ n by omega)).alongRow a.2).bind_left
          fun _ => Led.bind (led_usePattern t p) fun _ => ?_).imp ?_
      · refine .ite ?_ (.ite (.pure _) (led_fillPattern t _ _))
        exact .ite (.pure _) (.ite (.pure _) (.ite (.pure _) (led_fillPattern t _ _)))
      · rintro ⟨hsource, hrest⟩
        simp [Expr.nodes, Expr.nodesAll, IsResolved, PatternLibrary.contains, hget, hsource, hrest]

/-- An expression under its own filters vouches for anything. -/
theorem vouches_filteredCall {P : Prop} (ht : t.patterns = .builtin) (hsub : VouchesBelow t sub n)
    {name : String} (hname : Text.asciiUpper name ∈ Catalog.subqueries) (args : List Expr) :
    Vouches P (filteredCall t sub name args) := by
  unfold filteredCall
  split
  · exact vouches_malformedCall hsub name _ _
  · exact vouches_subquery ht hname (led_applyFilters hsub.led _) (hsub.led _)

theorem vouches_totalToDateCall {P : Prop} (ht : t.patterns = .builtin)
    (hsub : VouchesBelow t sub n) {name : String}
    (hname : Text.asciiUpper name ∈ Catalog.subqueries) (args : List Expr) :
    Vouches P (totalToDateCall t sub name args) := by
  unfold totalToDateCall
  split
  · exact vouches_subquery ht hname (Led.bind (led_addCondition (led_genericCall hsub.led _ _) _)
      fun _ => led_applyFilters hsub.led _) (hsub.led _)
  · exact vouches_malformedCall hsub name args _

/-- **High confidence speaks for a call** and its arguments. -/
theorem vouches_renderCall (ht : t.patterns = .builtin) (hsub : VouchesBelow t sub n)
    (name : String) {args : List Expr} (h : Expr.heightAll args ≤ n) :
    Vouches (AllResolved t (Expr.call name args).nodes) (renderCall t sub name args) := by
  unfold renderCall
  split
  · next hname => exact vouches_filteredCall ht hsub (by rw [hname]; decide) args
  · next hname => exact vouches_filteredCall ht hsub (by rw [hname]; decide) args
  · next hname => exact vouches_totalToDateCall ht hsub (by rw [hname]; decide) args
  · next hname => exact vouches_totalToDateCall ht hsub (by rw [hname]; decide) args
  · next hname => exact vouches_totalToDateCall ht hsub (by rw [hname]; decide) args
  · next hname => exact vouches_switchCall ht hsub hname h
  · exact vouches_projectionCall hsub name h
  · exact vouches_projectionCall hsub name h
  · exact vouches_projectionCall hsub name h
  · exact vouches_iteratorCall ht hsub name h
  · exact vouches_iteratorCall ht hsub name h
  · exact vouches_iteratorCall ht hsub name h
  · exact vouches_iteratorCall ht hsub name h
  · exact vouches_iteratorCall ht hsub name h
  · exact vouches_genericCall hsub name h

/-- No value leaves nothing to guess. -/
theorem allResolved_of_isBlank {e : Expr} (h : e.isBlank = true) : AllResolved t e.nodes := by
  unfold Expr.isBlank at h
  split at h
  · simp [Expr.nodes, IsResolved]
  · cases h

theorem vouches_renderBinary (hsub : VouchesBelow t sub n) {l r : Expr} (op : BinaryOp)
    (hl : l.height ≤ n) (hr : r.height ≤ n) :
    Vouches (AllResolved t l.nodes ∧ AllResolved t r.nodes) (renderBinary t sub l op r) := by
  have hoperand : ∀ e : Expr, e.height ≤ n → ∀ parent onRight,
      Vouches (AllResolved t e.nodes) (renderOperand sub e parent onRight) :=
    fun e he _ _ => (hsub.vouches e he).bind_left fun _ => .pure _
  rw [renderBinary]
  split
  · next hblank =>
    -- The operand that is not rendered has no value.
    simp only [Bool.and_eq_true, Bool.or_eq_true] at hblank
    by_cases hright : r.isBlank = true
    · rw [if_pos hright]
      exact ((hoperand l hl _ _).bind_left fun _ => .pure _).imp fun h =>
        ⟨h, allResolved_of_isBlank hright⟩
    · rw [if_neg hright]
      exact ((hoperand r hr _ _).bind_left fun _ => .pure _).imp fun h =>
        ⟨allResolved_of_isBlank (hblank.2.resolve_right hright), h⟩
  · refine .ite ?_ ?_
    · exact (hsub.vouches l hl).bind fun _ => (hsub.vouches r hr).bind_left fun _ => .pure _
    refine (hoperand l hl _ _).bind fun _ => (hoperand r hr _ _).bind_left fun _ => ?_
    exact .ite (.ite (.pure _) (.pure _)) (.pure _)

theorem vouches_renderTable (name : String) :
    Vouches (AllResolved t (Expr.table name).nodes) (renderTable t name) := by
  simp only [Expr.nodes, allResolved_cons, allResolved_nil, and_true, IsResolved, List.mem_append]
  rw [renderTable]
  split
  · next hword => exact Ensures.pure (.inr (.inl (by simp_all)))
  · split
    · next hword => exact Ensures.pure (.inr (.inr (by simp_all)))
    · exact ((vouches_resolveTable name).bind_left fun _ => .pure _).imp .inl

/-- **One level of rendering** vouches for its expression when the levels below do. -/
theorem vouches_renderWith (ht : t.patterns = .builtin) (hsub : VouchesBelow t sub n) {e : Expr}
    (h : e.height ≤ n + 1) : Vouches (AllResolved t e.nodes) (renderWith t sub e) := by
  cases e with
  | literal value => exact Ensures.pure (by simp [Expr.nodes, IsResolved])
  | column ref =>
    refine ((vouches_resolveColumn ref).bind_left fun _ => .pure _).imp fun href => ?_
    simpa [Expr.nodes] using href
  | table name => exact vouches_renderTable name
  | call name args =>
    simp only [Expr.height] at h
    exact vouches_renderCall ht hsub name (by omega)
  | binary l op r =>
    simp only [Expr.height] at h
    refine (vouches_renderBinary hsub op (show l.height ≤ n by omega) (by omega)).imp ?_
    simp [Expr.nodes, IsResolved]
  | unary op e =>
    simp only [Expr.height] at h
    refine ((hsub.vouches e (by omega)).bind_left fun _ => ?_).imp ?_
    · cases op with
      | negate => exact .pure _
      | not => exact .pure _
    · simp [Expr.nodes, IsResolved]
  | «variable» name value =>
    cases value with
    | none => exact vouches_note_bind (by decide) _ fun _ => .pure _
    | some value =>
      simp only [Expr.height, Expr.heightOpt] at h
      refine ((hsub.vouches value (by omega)).bind_left fun _ => .pure _).imp ?_
      simp [Expr.nodes, Expr.nodesOpt, IsResolved]
  | cond c a e =>
    simp only [Expr.height] at h
    have hrest : Expr.heightAll e.toList ≤ n := by
      cases e with
      | none => simp [Expr.heightAll]
      | some e =>
        simp only [Expr.heightOpt] at h
        simpa [Expr.heightAll] using by omega
    refine ((hsub.vouches c (by omega)).bind fun _ => (hsub.vouches a (by omega)).bind fun _ =>
      (vouches_renderAll hsub hrest).bind_left fun _ => ?_).imp ?_
    · cases t.patterns.get? "IF" with
      | some p => exact led_applyPattern t p _ _
      | none => exact .pure _
    · have hnodes : Expr.nodesAll e.toList = Expr.nodesOpt e := by
        cases e with
        | none => simp [Expr.nodesAll, Expr.nodesOpt]
        | some e => simp [Expr.nodesAll, Expr.nodesOpt]
      simp [Expr.nodes, hnodes, IsResolved]
  | measure name body format description =>
    simp only [Expr.height] at h
    refine ((hsub.vouches body (by omega)).bind_left fun _ => .pure _).imp ?_
    simp [Expr.nodes, IsResolved]

end Rules

/-- **High confidence speaks for every node** of an expression. -/
theorem vouches_renderExpr {t : Target} (ht : t.patterns = .builtin) (e : Expr) :
    Vouches (AllResolved t e.nodes) (renderExpr t e) := by
  have hbelow : ∀ n, VouchesBelow t (renderExpr t) n := by
    intro n
    induction n with
    | zero => exact ⟨led_renderExpr t, fun e h => absurd (height_pos e) (by omega)⟩
    | succ n ih =>
      refine ⟨led_renderExpr t, fun e h => ?_⟩
      rw [renderExpr_eq]
      exact vouches_renderWith ht ih h
  exact (hbelow e.height).vouches e (Nat.le_refl _)

end MeasureSql.Rendering
