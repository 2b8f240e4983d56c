import MeasureSql.Proofs.Render.Rules
import MeasureSql.Render.Engine

/-!
# Which source texts have a query

A text that cannot be parsed has a failed query.  A text that can be parsed has a query unless
rendering its tree comes to a name in disguise.

## Main results

* `Rendering.settles_renderLevels` — rendering stops exactly when it comes to a disguised name.
* `Engine.query_outcome` — which source texts have a query.
-/

namespace MeasureSql

open Dax

namespace Rendering

/-! ## Expressions -/

section Expressions

variable {t : Target} {sub : Expr → Rendering String} {n : Nat}

theorem settles_renderOperand {P : Prop} {err : TemplateError} {child : Expr}
    (h : Settles P err (sub child)) (parent : Nat) (onRight : Bool) :
    Settles P err (renderOperand sub child parent onRight) :=
  Settles.bind_left h fun _ => .pure _

theorem settles_renderTable {err : TemplateError} (name : String) :
    Settles False err (renderTable t name) :=
  .ite (.pure _)
    (.ite (.pure _) (Settles.bind_right (settles_resolveTable t name) fun _ => .pure _))

theorem settles_renderBinary {P Q : Prop} {err : TemplateError} {l r : Expr} (op : BinaryOp)
    (hl : Settles P err (sub l)) (hr : Settles Q err (sub r)) (hbl : l.isBlank = true → ¬P)
    (hbr : r.isBlank = true → ¬Q) : Settles (P ∨ Q) err (renderBinary t sub l op r) := by
  rw [renderBinary]
  split
  · next hblank =>
    simp only [Bool.and_eq_true, Bool.or_eq_true] at hblank
    refine Settles.bind_left (settles_renderOperand ?_ _ _) fun _ => .pure _
    by_cases hright : r.isBlank = true
    · rw [if_pos hright]
      exact hl.congr (by simp [hbr hright])
    · rw [if_neg hright]
      exact hr.congr (by simp [hbl (hblank.2.resolve_right hright)])
  · refine .ite (Settles.bind hl fun _ => Settles.bind_left hr fun _ => .pure _) ?_
    refine Settles.bind (settles_renderOperand hl _ _) fun _ =>
      Settles.bind_left (settles_renderOperand hr _ _) fun _ => ?_
    exact .ite (.ite (.pure _) (.pure _)) (.pure _)

/-- No value comes to no function. -/
theorem not_hasDisguised_of_isBlank {e : Expr} (h : e.isBlank = true) :
    ¬HasDisguised e.visited := by
  unfold Expr.isBlank at h
  split at h
  · simp [Expr.visited]
  · cases h

theorem settles_renderVariable (hsub : Stops sub n) (name : String) {value : Option Expr}
    (h : Expr.heightOpt value ≤ n) :
    Settles (HasDisguised (Expr.visitedOpt value)) openHole (renderVariable sub name value) := by
  cases value with
  | none =>
    exact (Settles.bind_right (settles_note _ _) fun _ => .pure _).congr (by simp [Expr.visitedOpt])
  | some value => exact Settles.bind_left (hsub value h) fun _ => .pure _

theorem settles_renderCond (ht : t.patterns = .builtin) (hsub : Stops sub n)
    {condition thenBranch : Expr} {elseBranch : Option Expr} (hc : condition.height ≤ n)
    (ha : thenBranch.height ≤ n) (he : Expr.heightOpt elseBranch ≤ n) :
    Settles (HasDisguised (Expr.cond condition thenBranch elseBranch).visited) openHole
      (renderCond t sub condition thenBranch elseBranch) := by
  have hlist : Expr.heightAll elseBranch.toList ≤ n := by
    cases elseBranch with
    | none => simp [Expr.heightAll]
    | some e => simpa [Expr.heightAll, Expr.heightOpt] using he
  have hvisited : Expr.visitedAll elseBranch.toList = Expr.visitedOpt elseBranch := by
    cases elseBranch with
    | none => simp [Expr.visitedAll, Expr.visitedOpt]
    | some e => simp [Expr.visitedAll, Expr.visitedOpt]
  have hrest := settles_renderAll hsub hlist
  rw [hvisited] at hrest
  refine Settles.congr (Settles.bind (hsub condition hc) fun _ =>
    Settles.bind (hsub thenBranch ha) fun _ => Settles.bind_left hrest fun _ => ?_)
    (by simp [Expr.visited])
  rw [ht]
  cases hget : PatternLibrary.builtin.get? "IF" with
  | none => exact .pure _
  | some p =>
    have hword : Text.asciiUpper "IF" = "IF" := rfl
    exact settles_applyPattern_of_get? hget hword rfl (by decide) (by decide) _ _

/-- **One level of rendering** stops at a disguised name when the levels below do. -/
theorem settles_renderWith (ht : t.patterns = .builtin) (hsub : Stops sub n) {e : Expr}
    (h : e.height ≤ n + 1) : Settles (HasDisguised e.visited) openHole (renderWith t sub e) := by
  cases e with
  | literal value => exact (Settles.pure _).congr (by simp [Expr.visited])
  | column ref =>
    exact (Settles.bind_right (settles_resolveColumn t ref) fun _ => .pure _).congr
      (by simp [Expr.visited])
  | table name => exact (settles_renderTable name).congr (by simp [Expr.visited])
  | call name args =>
    simp only [Expr.height] at h
    exact settles_renderCall ht hsub (by omega)
  | binary l op r =>
    simp only [Expr.height] at h
    refine (settles_renderBinary op (hsub l (by omega)) (hsub r (by omega))
      not_hasDisguised_of_isBlank not_hasDisguised_of_isBlank).congr ?_
    rw [Expr.visited, hasDisguised_append]
  | unary op e =>
    simp only [Expr.height] at h
    rw [Expr.visited]
    refine Settles.bind_left (hsub e (by omega)) fun _ => ?_
    cases op with
    | negate => exact .pure _
    | not => exact .pure _
  | «variable» name value =>
    simp only [Expr.height] at h
    rw [Expr.visited]
    exact settles_renderVariable hsub name (by omega)
  | cond c a e =>
    simp only [Expr.height] at h
    exact settles_renderCond ht hsub (by omega) (by omega) (by omega)
  | measure name body format description =>
    simp only [Expr.height] at h
    rw [Expr.visited]
    exact Settles.bind_left (hsub body (by omega)) fun _ => .pure _

/-- **Rendering stops exactly when it comes to a disguised name.** -/
theorem settles_renderLevels (ht : t.patterns = .builtin) (levels : Nat) :
    Stops (renderLevels t levels) levels := by
  induction levels with
  | zero => exact fun e h => absurd h (by have := height_pos e; omega)
  | succ levels ih => exact fun e h => settles_renderWith ht ih h

end Expressions

end Rendering

/-! ## Queries -/

namespace Engine

/-- **Which source texts have a query.**  With the catalog and without a helper, a source text has a
query, which is a failed one exactly when the text cannot be parsed, unless rendering its tree comes
to a disguised name; then the pattern of the grouping is reported to have an open hole. -/
theorem query_outcome (schema : Option Schema) (dialect : Dialect) (level : Confidence)
    (dax : String) :
    ((∃ q, Engine.query ⟨schema, .builtin, dialect, none, level⟩ dax = .ok q ∧
        q.success = (parseSource dax).success) ↔
      ¬((parseSource dax).success = true ∧ HasDisguised (parseSource dax).tree.visited)) ∧
    (Engine.query ⟨schema, .builtin, dialect, none, level⟩ dax =
        .error (.unbound "SUMMARIZE" "aggregations") ↔
      (parseSource dax).success = true ∧ HasDisguised (parseSource dax).tree.visited) := by
  have hquery : Engine.query ⟨schema, .builtin, dialect, none, level⟩ dax =
      Engine.draft ⟨schema, .builtin, dialect, none, level⟩ dax := by
    rw [query]
    rcases draft _ dax with err | q
    · rfl
    · rfl
  rw [hquery]
  rw [draft]
  by_cases hparsed : (parseSource dax).success = true
  · have hpatterns :
        (Engine.target ⟨schema, .builtin, dialect, none, level⟩).patterns = .builtin := by
      simp only [target]
    have hsettles := Rendering.settles_renderLevels hpatterns
      (parseSource dax).tree.height (parseSource dax).tree (Nat.le_refl _)
    by_cases hd : HasDisguised (parseSource dax).tree.visited
    · obtain ⟨s, hs⟩ := hsettles.stops hd {}
      simp [hparsed, hd, Rendering.renderExpr, hs, Rendering.openHole]
    · obtain ⟨sql, s, hs⟩ := hsettles.gives hd {}
      simp [hparsed, hd, Rendering.renderExpr, hs, Query.ofState]
  · simp [hparsed, Query.failed]

/-- A name that begins with a long s is disguised. -/
example : IsDisguised "\u017fUMMARIZE" := by
  decide +kernel

end Engine

end MeasureSql
