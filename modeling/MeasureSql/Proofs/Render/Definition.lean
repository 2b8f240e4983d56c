import MeasureSql.Proofs.Dax.Definition
import MeasureSql.Proofs.Render.Query
import MeasureSql.Proofs.Render.Levels
import MeasureSql.Schema.Retail

/-!
# A definition is a wrapper

The query of a definition is the query of its text with the name of the measure behind the SQL.
Rendering a measure renders the body from the same state and records nothing, so all that there is
to know about the query is as it was.

## Main results

* `renderExpr_measure` — the SQL and the state of a measure.
* `query_definition` — the query of a definition.
-/

namespace MeasureSql

open Dax

namespace Rendering

/-- **A measure is its body with its name behind**, and leaves the state of its body. -/
theorem renderExpr_measure (t : Target) (name : String) (body : Expr)
    (format description : Option String) (s : RenderState) :
    renderExpr t (.measure name body format description) s =
      ((renderExpr t body s).1.map (· ++ " AS " ++ t.dialect.quoteIdentifier name),
        (renderExpr t body s).2) := by
  rw [renderExpr_eq]
  change (renderExpr t body >>= fun sql =>
    pure (sql ++ " AS " ++ t.dialect.quoteIdentifier name)) s = _
  rcases hrun : renderExpr t body s with ⟨err | sql, s'⟩
  · simp [bind, ExceptT.bind, ExceptT.mk, StateT.bind, hrun, ExceptT.bindCont]
    rfl
  · simp [bind, ExceptT.bind, ExceptT.mk, StateT.bind, hrun, ExceptT.bindCont]
    rfl

end Rendering

namespace Engine

/-- Without a helper a query is as the engine makes it. -/
theorem query_eq_draft {e : Engine} (unaided : e.enhancer = none) (dax : String) :
    e.query dax = e.draft dax := by
  rw [query, unaided]
  cases e.draft dax <;> rfl

/-- What is accepted is rendered. -/
theorem draft_of_success {e : Engine} {dax : String}
    (accepted : (parseSource dax).success = true) :
    e.draft dax = (Rendering.renderExpr e.target (parseSource dax).tree {}).1.map fun sql =>
      .ofState dax sql (Rendering.renderExpr e.target (parseSource dax).tree {}).2 := by
  rw [draft, if_pos accepted]
  rcases Rendering.renderExpr e.target (parseSource dax).tree {} with ⟨err | sql, s⟩ <;> rfl

theorem draft_of_not_success {e : Engine} {dax : String}
    (refused : (parseSource dax).success = false) :
    e.draft dax = .ok (.failed dax (parseSource dax).errors) := by
  rw [draft, refused]
  rfl

/-- **A definition is a wrapper.**  For a name that can stand in brackets, and a text that does not
itself begin like a definition, the definition has SQL exactly when the text has some, and its query
is that of the text with the name behind the SQL: confidence, patterns, tables and warnings are the
same.  An open hole of a pattern is reported for both or for neither. -/
theorem query_definition (e : Engine) (unaided : e.enhancer = none) (name text : String)
    (nonempty : name ≠ "") (plain : ']' ∉ name.toList)
    (expression : beginsMeasure (parse text).tokens = false) :
    ((∃ q, e.query (definition name text) = .ok q ∧ q.success = true) ↔
      ∃ q, e.query text = .ok q ∧ q.success = true) ∧
    (∀ q, e.query text = .ok q → q.success = true →
      e.query (definition name text) = .ok { q with
        dax := definition name text
        sql := q.sql ++ " AS " ++ e.dialect.quoteIdentifier name }) ∧
    ∀ err, e.query (definition name text) = .error err ↔ e.query text = .error err := by
  have parsed {tree : Expr} := parseSource_definition_iff nonempty plain expression (e := tree)
  rw [query_eq_draft unaided, query_eq_draft unaided]
  cases accepted : (parseSource text).success with
  | true =>
    obtain ⟨whole, tree⟩ := parsed.mpr ⟨_, ⟨Option.isNone_iff_eq_none.mp accepted, rfl⟩, rfl⟩
    have accepted' : (parseSource (definition name text)).success = true :=
      Option.isNone_iff_eq_none.mpr whole
    rw [draft_of_success accepted, draft_of_success accepted', tree, Rendering.renderExpr_measure]
    rcases Rendering.renderExpr e.target (parseSource text).tree {} with ⟨err | sql, s⟩
    · simp [Except.map]
    · simp [Except.map, Query.ofState, target]
  | false =>
    have refused' : (parseSource (definition name text)).success = false := by
      refine Bool.eq_false_iff.mpr fun accepted' => ?_
      obtain ⟨body, ⟨whole, -⟩, -⟩ := parsed.mp ⟨Option.isNone_iff_eq_none.mp accepted', rfl⟩
      rw [ParseOutcome.success, whole] at accepted
      cases accepted
    rw [draft_of_not_success accepted, draft_of_not_success refused']
    simp [Query.failed]

/-- The sum of a column of the retail schema is defined. -/
theorem query_definition_of_amount :
    ∃ q, Engine.query { schema := some .retail } "SUM(Sales[Amount])" = .ok q ∧
      q.sql = "SUM(sales.amount)" ∧ q.confidence = .high ∧
      Engine.query { schema := some .retail } "[Total Sales] = SUM(Sales[Amount])" = .ok { q with
        dax := "[Total Sales] = SUM(Sales[Amount])"
        sql := "SUM(sales.amount) AS \"Total Sales\"" } := by
  have hview : ((Engine.query { schema := some .retail } "SUM(Sales[Amount])").toOption.map
      fun q => (q.success, q.sql, q.confidence)) = some (true, "SUM(sales.amount)", .high) := by
    rw [PatternLibrary.builtin_eq]
    decide +kernel
  obtain ⟨q, hq, hends⟩ := exists_of_map_toOption hview
  simp only [Prod.mk.injEq] at hends
  obtain ⟨hs, hsql, hhigh⟩ := hends
  have whole := (query_definition { schema := some .retail } rfl "Total Sales"
    "SUM(Sales[Amount])" (by decide) (by decide) (by decide +kernel)).2.1 q hq hs
  have quoted : Dialect.quoteIdentifier .snowflake "Total Sales" = "\"Total Sales\"" := by
    decide +kernel
  rw [hsql, quoted] at whole
  exact ⟨q, hq, hsql, hhigh, whole⟩

end Engine

end MeasureSql
