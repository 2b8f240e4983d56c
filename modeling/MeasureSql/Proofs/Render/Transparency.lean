import MeasureSql.Pattern.Catalog
import MeasureSql.Proofs.Pattern.Catalog
import MeasureSql.Proofs.Render.ClearFilters
import MeasureSql.Proofs.Render.Vouching
import MeasureSql.Schema.Retail

/-!
# Variables are transparent

A variable is rendered as what it stands for, in parentheses if that is a binary operation.  An
operator puts its operands in parentheses by their shape, and to it a variable has none.  So an
expression and the expression without its variables are written with different parentheses, each
pair of them around the SQL of a node of the expression.  Apart from that, rendering does the same
with both wherever no rule looks for a shape that a variable hides: the text is the same, or the
error, and so are confidence, warnings, patterns and tables.

## Main definitions

* `SameButParens` — texts that are the same but for parentheses around the SQL of nodes.

## Main results

* `carried_renderExpr` — every clear expression, by induction on its height.
* `renderExpr_inlined` — a clear expression and the expression without its variables.
-/

namespace MeasureSql.Rendering

open Dax List

/-! ## Parentheses -/

/-- The text is the SQL of the expression, from some state. -/
def IsSqlOf (t : Target) (e : Expr) (a : String) : Prop :=
  ∃ s u, renderExpr t e s = (.ok a, u)

/-- **The texts are the same but for parentheses**: where one of them has the SQL of a node of an
expression, the other has that of the node without its variables, and parentheses may stand around
either of the two. -/
inductive SameButParens (t : Target) (root : Expr) : String → String → Prop
  | refl (a : String) : SameButParens t root a a
  | append {a a' b b' : String} (ha : SameButParens t root a a') (hb : SameButParens t root b b') :
      SameButParens t root (a ++ b) (a' ++ b')
  | parens {node : Expr} {a a' : String} (needed needed' : Bool) (hnode : node ∈ root.nodes)
      (hne : a ≠ "") (h : IsSqlOf t node a) (h' : IsSqlOf t node.inlined a')
      (ha : SameButParens t root a a') :
      SameButParens t root (parenthesized needed a) (parenthesized needed' a')

section Parentheses

variable {t : Target} {root : Expr} {a a' : String}

theorem parenthesized_ne_empty (needed : Bool) (h : a ≠ "") : parenthesized needed a ≠ "" := by
  cases needed with
  | false => exact h
  | true => simp [parenthesized]

/-- Parentheses stand around something. -/
theorem SameButParens.eq_empty_iff (h : SameButParens t root a a') : a = "" ↔ a' = "" := by
  induction h with
  | refl a => rfl
  | append ha hb iha ihb =>
    rw [String.append_eq_empty_iff, String.append_eq_empty_iff]
    exact and_congr iha ihb
  | parens needed needed' hnode hne h h' ha ih =>
    exact iff_of_false (parenthesized_ne_empty needed hne)
      (parenthesized_ne_empty needed' fun hempty => hne (ih.mpr hempty))

theorem congruence_sameButParens (t : Target) (root : Expr) : Congruence (SameButParens t root) :=
  ⟨.refl, .append, SameButParens.eq_empty_iff⟩

/-- Parentheses that are put only around something. -/
theorem SameButParens.wrap {node : Expr} (hnode : node ∈ root.nodes) (h : IsSqlOf t node a)
    (h' : IsSqlOf t node.inlined a') (ha : SameButParens t root a a') {needed needed' : Bool}
    (hneeded : needed = true → a ≠ "") (hneeded' : needed' = true → a' ≠ "") :
    SameButParens t root (parenthesized needed a) (parenthesized needed' a') := by
  by_cases hempty : a = ""
  · have hempty' : a' = "" := ha.eq_empty_iff.mp hempty
    cases needed with
    | true => exact absurd hempty (hneeded rfl)
    | false =>
      cases needed' with
      | true => exact absurd hempty' (hneeded' rfl)
      | false => exact ha
  · exact .parens needed needed' hnode hempty h h' ha

end Parentheses

/-! ## Operations -/

section Operations

variable {t : Target}

/-- The SQL of an operation is not empty. -/
theorem IsSqlOf.ne_empty {e : Expr} {a : String} (h : IsSqlOf t e a) (he : e.hasOperator = true) :
    a ≠ "" := by
  have hsub : ∀ e, Ensures (fun _ => True) (renderExpr t e) fun _ => True :=
    fun e s a s' _ _ => ⟨trivial, trivial⟩
  have hoperand : ∀ e parent onRight, Ensures (fun _ => True)
      (renderOperand (renderExpr t) e parent onRight) fun _ => True :=
    fun e parent onRight s a s' _ _ => ⟨trivial, trivial⟩
  have hwritten : Ensures (fun _ => True) (renderExpr t e) fun a => a ≠ "" := by
    rw [renderExpr_eq]
    cases e with
    | binary l op r =>
      show Ensures _ (renderBinary t (renderExpr t) l op r) _
      unfold renderBinary
      refine .ite (.bind (hoperand _ _ _) fun _ => .pure (by simp)) (.ite ?_ ?_)
      · exact .bind (hsub l) fun _ => .bind (hsub r) fun _ => .pure (by simp)
      · refine .bind (hoperand _ _ _) fun _ => .bind (hoperand _ _ _) fun _ => ?_
        exact .ite (.ite (.pure (by simp)) (.pure (by simp))) (.pure (by simp))
    | unary op e =>
      refine .bind (hsub e) fun _ => ?_
      cases op with
      | negate => exact .pure (by simp)
      | not => exact .pure (by simp)
    | _ => cases he
  obtain ⟨s, u, hrun⟩ := h
  exact (hwritten s a u hrun trivial).2

theorem hasOperator_of_isBinary {e : Expr} (h : e.isBinary = true) : e.hasOperator = true := by
  cases e with
  | binary l op r => rfl
  | _ => cases h

theorem hasOperator_of_needsParens {e : Expr} {parent : Nat} {onRight : Bool}
    (h : needsParens e parent onRight = true) : e.hasOperator = true := by
  cases e with
  | binary l op r => rfl
  | _ => cases h

/-- A steady expression has an operator on top, and the same parentheses around it, with and without
its variables. -/
theorem needsParens_inlined {e : Expr} (h : e.steady = true) (parent : Nat) (onRight : Bool) :
    needsParens e.inlined parent onRight = needsParens e parent onRight := by
  cases e with
  | «variable» name value =>
    cases value with
    | none => rfl
    | some value =>
      rw [Expr.steady, Bool.and_eq_true, Bool.not_eq_true'] at h
      rw [Expr.inlined]
      cases hneeds : needsParens value.inlined parent onRight with
      | false => rfl
      | true =>
        rw [hasOperator_of_needsParens hneeds] at h
        cases h.1
  | _ => rfl

theorem hasOperator_inlined {e : Expr} (h : e.steady = true) :
    e.inlined.hasOperator = e.hasOperator := by
  cases e with
  | «variable» name value =>
    cases value with
    | none => rfl
    | some value =>
      rw [Expr.steady, Bool.and_eq_true, Bool.not_eq_true'] at h
      rw [Expr.inlined]
      exact h.1
  | _ => rfl

theorem signNeedsParens_eq (e : Expr) (sql : String) :
    signNeedsParens e sql = (e.hasOperator || sql.toList.head? == some '-') := by
  cases e <;> rfl

end Operations

/-! ## Expressions -/

section Expressions

variable {t : Target} {root : Expr} {p : Prop}

/-- The relation that carries the induction: alike, and equal for a steady expression. -/
abbrev Transparent (t : Target) (root e : Expr) : Prop :=
  Carried t (SameButParens t root) (EqualIf (e.steady = true) (SameButParens t root)) e

theorem Transparent.within {e : Expr} (h : Transparent t root e) (hp : p → e.steady = true) :
    Carried t (SameButParens t root) (EqualIf p (SameButParens t root)) e :=
  Carried.imp h fun _ _ ha => ⟨ha.1, fun hp' => ha.2 (hp hp')⟩

theorem both_renderOperand {e : Expr} (h : Transparent t root e) (hnode : e ∈ root.nodes)
    (hp : p → e.steady = true) (parent : Nat) (onRight : Bool) :
    Both (SameButParens t root) (EqualIf p (SameButParens t root))
      (renderOperand (renderExpr t) e parent onRight)
      (renderOperand (renderExpr t) e.inlined parent onRight) := by
  refine (Both.runs h).bind fun a a' ha => .pure ⟨?_, fun hp' => ?_⟩
  · obtain ⟨⟨ha, -⟩, hsql, hsql'⟩ := ha
    exact .wrap hnode hsql hsql' ha
      (fun hneeds => IsSqlOf.ne_empty hsql (hasOperator_of_needsParens hneeds))
      (fun hneeds => IsSqlOf.ne_empty hsql' (hasOperator_of_needsParens hneeds))
  · rw [needsParens_inlined (hp hp'), ha.1.2 (hp hp')]

theorem both_renderBinary {l r : Expr} (op : BinaryOp) (hl : Transparent t root l)
    (hr : Transparent t root r) (hlnode : l ∈ root.nodes) (hrnode : r ∈ root.nodes)
    (hclear : clearComparison l op r = true) (hpl : p → l.steady = true)
    (hpr : p → r.steady = true) :
    Both (SameButParens t root) (EqualIf p (SameButParens t root))
      (renderBinary t (renderExpr t) l op r)
      (renderBinary t (renderExpr t) l.inlined op r.inlined) := by
  have hR := (congruence_sameButParens t root).equalIf p
  have hasks : ((op == .equals || op == .notEquals) && (l.inlined.isBlank || r.inlined.isBlank)) =
      ((op == .equals || op == .notEquals) && (l.isBlank || r.isBlank)) := by
    rw [clearComparison, comparesValues] at hclear
    cases hop : (op == .equals || op == .notEquals) with
    | false => rfl
    | true =>
      rw [hop, Bool.not_true, Bool.false_or, Bool.and_eq_true] at hclear
      rw [Expr.eq_of_shows hclear.1, Expr.eq_of_shows hclear.2]
  unfold renderBinary
  rw [hasks]
  split
  · next h =>
    have hblank : r.inlined.isBlank = r.isBlank := by
      rw [clearComparison, comparesValues] at hclear
      simp only [Bool.and_eq_true] at h
      rw [h.1, Bool.not_true, Bool.false_or, Bool.and_eq_true] at hclear
      exact Expr.eq_of_shows hclear.2
    rw [hblank]
    cases r.isBlank with
    | true =>
      exact (both_renderOperand hl hlnode hpl _ _).bind fun _ _ ha =>
        .pure (hR.append (hR.append (hR.append ha (hR.refl _)) (hR.refl _)) (hR.refl _))
    | false =>
      exact (both_renderOperand hr hrnode hpr _ _).bind fun _ _ ha =>
        .pure (hR.append (hR.append (hR.append ha (hR.refl _)) (hR.refl _)) (hR.refl _))
  · refine .ite ?_ ?_
    · exact Both.bind (hl.within hpl) fun _ _ ha => Both.bind (hr.within hpr) fun _ _ hb =>
        .pure (hR.append (hR.append (hR.around _ ha _) hb) (hR.refl _))
    · refine (both_renderOperand hl hlnode hpl _ _).bind fun _ _ ha => ?_
      refine (both_renderOperand hr hrnode hpr _ _).bind fun _ _ hb => .ite (.ite ?_ ?_) ?_
      · exact .pure (hR.append (hR.append (hR.append (hR.append ha (hR.refl _)) (hR.refl _))
          (hR.refl _)) hb)
      · exact .pure (hR.append (hR.append (hR.around _ ha _) hb) (hR.refl _))
      · exact .pure (hR.append (hR.append (hR.append (hR.append ha (hR.refl _)) (hR.refl _))
          (hR.refl _)) hb)

theorem both_renderUnary (op : UnaryOp) {e : Expr} (h : Transparent t root e)
    (hnode : e ∈ root.nodes) (hp : p → e.steady = true) :
    Both (SameButParens t root) (EqualIf p (SameButParens t root))
      (renderUnary (renderExpr t) op e) (renderUnary (renderExpr t) op e.inlined) := by
  have hR := (congruence_sameButParens t root).equalIf p
  have hneeds : ∀ {e : Expr} {a : String}, IsSqlOf t e a → signNeedsParens e a = true → a ≠ "" := by
    intro e a hsql hsign
    rw [signNeedsParens_eq, Bool.or_eq_true] at hsign
    rcases hsign with hoperator | hhead
    · exact hsql.ne_empty hoperator
    · rintro rfl
      cases hhead
  refine (Both.runs h).bind fun a a' ha => ?_
  have hwrapped : EqualIf p (SameButParens t root) (parenthesized (signNeedsParens e a) a)
      (parenthesized (signNeedsParens e.inlined a') a') := by
    obtain ⟨⟨ha, hequal⟩, hsql, hsql'⟩ := ha
    refine ⟨.wrap hnode hsql hsql' ha (hneeds hsql) (hneeds hsql'), fun hp' => ?_⟩
    rw [signNeedsParens_eq, signNeedsParens_eq, hasOperator_inlined (hp hp'), hequal (hp hp')]
  cases op with
  | negate => exact .pure (hR.append (hR.refl _) hwrapped)
  | not => exact .pure (hR.append (hR.refl _) hwrapped)

/-- A variable has the text of what it stands for, but for parentheses around an operation. -/
theorem both_renderVariable (name : String) {value : Expr} (h : Transparent t root value)
    (hnode : value ∈ root.nodes) :
    Both (SameButParens t root)
      (EqualIf ((Expr.variable name (some value)).steady = true) (SameButParens t root))
      (renderVariable (renderExpr t) name (some value)) (renderExpr t value.inlined) := by
  have hbare : renderExpr t value.inlined = (do
      let a ← renderExpr t value.inlined
      pure (parenthesized false a)) := (bind_pure _).symm
  rw [hbare]
  refine (Both.runs h).bind fun a a' ha => .pure ?_
  obtain ⟨⟨ha, hequal⟩, hsql, hsql'⟩ := ha
  refine ⟨.wrap hnode hsql hsql' ha
    (fun hbinary => IsSqlOf.ne_empty hsql (hasOperator_of_isBinary hbinary)) (fun h => nomatch h),
    ?_⟩
  rw [Expr.steady, Bool.and_eq_true, Bool.not_eq_true']
  rintro ⟨hoperator, hsteady⟩
  have hbinary : value.isBinary = false := by
    cases hvalue : value.isBinary with
    | false => rfl
    | true =>
      rw [hasOperator_inlined hsteady, hasOperator_of_isBinary hvalue] at hoperator
      cases hoperator
  rw [hbinary, hequal hsteady]

theorem both_renderTable {S : String → String → Prop} (name : String) :
    Both S Eq (renderTable t name) (renderTable t name) := by
  unfold renderTable
  exact .ite (.pure rfl) (.ite (.pure rfl) ((both_resolveTable t name).bind_eq fun _ => .pure rfl))

theorem both_renderCond {S R : String → String → Prop} (hR : Congruence R) {c a : Expr}
    {e : Option Expr} (hc : Carried t S R c) (ha : Carried t S R a)
    (he : ∀ x ∈ e.toList, Carried t S R x) :
    Both S R (renderCond t (renderExpr t) c a e)
      (renderCond t (renderExpr t) c.inlined a.inlined (e.map Expr.inlined)) := by
  have hrest : (e.map Expr.inlined).toList = e.toList.map Expr.inlined := by cases e <;> rfl
  unfold renderCond
  rw [hrest]
  refine Both.bind hc fun _ _ hc => Both.bind ha fun _ _ ha => ?_
  refine (both_renderAll he).bind fun rest rest' hrest => ?_
  cases t.patterns.get? "IF" with
  | some p => exact both_applyPattern hR p (.cons hc (.cons ha hrest)) fun _ => rfl
  | none =>
    have helse : R (rest.headD "NULL") (rest'.headD "NULL") := by
      cases hrest with
      | nil => exact hR.refl _
      | cons hfirst htail => exact hfirst
    refine .pure (hR.append (hR.append (hR.append ?_ (hR.refl _)) helse) (hR.refl _))
    exact hR.append (hR.around _ hc _) ha

/-- **Every clear expression is rendered as it is without its variables**, if all its nodes are
nodes of some expression. -/
theorem carried_renderExpr (t : Target) (root : Expr) (n : Nat) :
    ∀ e : Expr, e.height ≤ n → e.nodes ⊆ root.nodes → e.clear t = true → Transparent t root e := by
  have hS := congruence_sameButParens t root
  induction n with
  | zero => exact fun e h => absurd (height_pos e) (by omega)
  | succ n ih =>
    intro e hheight hnodes hclear
    have hR := hS.equalIf (e.steady = true)
    have hlift : ∀ {m m' : Rendering String}, Both (SameButParens t root) Eq m m' →
        Both (SameButParens t root) (EqualIf (e.steady = true) (SameButParens t root)) m m' :=
      fun h => h.imp fun a _ heq => heq ▸ hR.refl a
    unfold Transparent Carried
    cases e with
    | literal value =>
      rw [Expr.inlined, renderExpr_eq]
      exact .pure (hR.refl _)
    | column ref =>
      rw [Expr.inlined, renderExpr_eq]
      exact (both_resolveColumn t ref).bind_eq fun _ => .pure (hR.refl _)
    | table name =>
      rw [Expr.inlined, renderExpr_eq]
      exact hlift (both_renderTable name)
    | call name args =>
      simp only [Expr.height] at hheight
      rw [Expr.nodes, cons_subset] at hnodes
      rw [Expr.clear, Bool.and_eq_true] at hclear
      rw [Expr.inlined_call, renderExpr_eq t (.call name args), renderExpr_eq]
      let P : Expr → Prop := fun x => x.height ≤ n ∧ x.nodes ⊆ root.nodes ∧ x.clear t = true
      have hP : Inherited P := by
        rintro f es ⟨hes, hesnodes, hesclear⟩ x hx
        simp only [Expr.height] at hes
        rw [Expr.nodes, cons_subset] at hesnodes
        rw [Expr.clear, Bool.and_eq_true] at hesclear
        have hle := Expr.height_le_heightAll hx
        exact ⟨by omega, List.Subset.trans (Expr.nodes_subset_nodesAll hx) hesnodes.2,
          Expr.clear_of_clearAll hesclear.2 x hx⟩
      have hargs : ∀ x ∈ args, P x := by
        intro x hx
        have hle := Expr.height_le_heightAll hx
        exact ⟨by omega, List.Subset.trans (Expr.nodes_subset_nodesAll hx) hnodes.2,
          Expr.clear_of_clearAll hclear.2 x hx⟩
      exact both_renderCall hS hP (fun x hx => ih x hx.1 hx.2.1 hx.2.2) name hargs hclear.1
    | binary l op r =>
      simp only [Expr.height] at hheight
      rw [Expr.nodes, cons_subset, append_subset] at hnodes
      rw [Expr.clear, Bool.and_eq_true, Bool.and_eq_true] at hclear
      have hl := ih l (by omega) hnodes.2.1 hclear.1.2
      have hr := ih r (by omega) hnodes.2.2 hclear.2
      rw [Expr.inlined, renderExpr_eq t (.binary l op r), renderExpr_eq]
      refine both_renderBinary op hl hr (hnodes.2.1 (Expr.mem_nodes l))
        (hnodes.2.2 (Expr.mem_nodes r)) hclear.1.1 ?_ ?_
      all_goals
        intro hsteady
        rw [Expr.steady, Bool.and_eq_true] at hsteady
      · exact hsteady.1
      · exact hsteady.2
    | unary op e =>
      simp only [Expr.height] at hheight
      rw [Expr.nodes, cons_subset] at hnodes
      rw [Expr.clear] at hclear
      rw [Expr.inlined, renderExpr_eq t (.unary op e), renderExpr_eq]
      refine both_renderUnary op (ih e (by omega) hnodes.2 hclear) (hnodes.2 (Expr.mem_nodes e)) ?_
      rw [Expr.steady]
      exact id
    | «variable» name value =>
      cases value with
      | none =>
        rw [Expr.inlined, renderExpr_eq]
        exact (both_note _ _).bind_eq fun _ => .pure (hR.refl _)
      | some value =>
        simp only [Expr.height, Expr.heightOpt] at hheight
        rw [Expr.nodes, Expr.nodesOpt, cons_subset] at hnodes
        rw [Expr.clear, Expr.clearOpt] at hclear
        rw [Expr.inlined, renderExpr_eq t (.variable name (some value))]
        exact both_renderVariable name (ih value (by omega) hnodes.2 hclear)
          (hnodes.2 (Expr.mem_nodes value))
    | cond c a e =>
      simp only [Expr.height] at hheight
      rw [Expr.nodes, cons_subset, append_subset, append_subset] at hnodes
      rw [Expr.clear, Bool.and_eq_true, Bool.and_eq_true] at hclear
      have hopt : Expr.inlinedOpt e = e.map Expr.inlined := by cases e <;> rfl
      have hsteady : (Expr.cond c a e).steady = true →
          c.steady = true ∧ a.steady = true ∧ Expr.steadyOpt e = true := by
        rw [Expr.steady, Bool.and_eq_true, Bool.and_eq_true]
        exact fun h => ⟨h.1.1, h.1.2, h.2⟩
      rw [Expr.inlined, hopt, renderExpr_eq t (.cond c a e), renderExpr_eq]
      refine both_renderCond hR ((ih c (by omega) hnodes.2.1.1 hclear.1.1).within fun h => ?_)
        ((ih a (by omega) hnodes.2.1.2 hclear.1.2).within fun h => ?_) ?_
      · exact (hsteady h).1
      · exact (hsteady h).2.1
      · intro x hx
        obtain rfl : e = some x := by cases e <;> simp_all
        have hx := ih x (by simp only [Expr.heightOpt] at hheight; omega) hnodes.2.2 hclear.2
        exact hx.within fun h => (hsteady h).2.2
    | measure name body format description =>
      simp only [Expr.height] at hheight
      rw [Expr.nodes, cons_subset] at hnodes
      rw [Expr.clear] at hclear
      rw [Expr.inlined, renderExpr_eq t (.measure name body format description), renderExpr_eq]
      refine Both.bind ((ih body (by omega) hnodes.2 hclear).within fun h => ?_) fun _ _ ha =>
        .pure (hR.append (hR.append ha (hR.refl _)) (hR.refl _))
      rwa [Expr.steady] at h

end Expressions

/-- **A clear expression is rendered as it is without its variables**, but for parentheses, and the
two come to the same state. -/
theorem renderExpr_inlined (t : Target) {e : Expr} (h : e.clear t = true) (s : RenderState) :
    SameResult (SameButParens t e) (renderExpr t e s).1 (renderExpr t e.inlined s).1 ∧
      (renderExpr t e.inlined s).2 = (renderExpr t e s).2 := by
  have hS := congruence_sameButParens t e
  obtain ⟨hresult, f, -, hstate⟩ :=
    carried_renderExpr t e e.height e (Nat.le_refl _) (fun _ => id) h s s (.refl hS s)
  refine ⟨hresult.imp fun _ _ ha => ha.1, ?_⟩
  -- Rendering leaves the filters as they were, so these are the same as well.
  have hfilters := (led_renderExpr t e s).filters_eq
  have hfilters' := (led_renderExpr t e.inlined s).filters_eq
  rw [hstate] at hfilters' ⊢
  dsimp only at hfilters'
  rw [hfilters', ← hfilters]

/-- A variable for no value hides it from a comparison. -/
example :
    let t : Target := ⟨some .retail, .builtin, .snowflake⟩
    let missing : Expr := .binary (.column ⟨some "Customer", "Email"⟩) .equals
      (.variable "b" (some .blank))
    missing.clear t = false ∧
      (renderExpr t missing {}).1.toOption = some "dim_customer.email = NULL" ∧
      (renderExpr t missing.inlined {}).1.toOption = some "dim_customer.email IS NULL" := by
  dsimp only
  rw [PatternLibrary.builtin_eq]
  decide +kernel

end MeasureSql.Rendering
