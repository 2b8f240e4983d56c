import MeasureSql.Proofs.Render.Assurance
import MeasureSql.Render.Engine
import MeasureSql.Schema.Retail

/-!
# Queries

A query is what the state says after the expression of its text has been rendered, but that a helper
that was asked about it may have added a warning.  A query of high confidence has been made without
a guess and without a warning; low confidence comes with a warning.

## Main results

* `exists_state_of_query` — a query is what the state after rendering says.
* `resolved_of_query_high` — what the confidence of a query assures.
-/

namespace MeasureSql.Engine

open Dax

/-- A value that was computed can be computed from. -/
theorem exists_of_map_toOption {ε α β : Type} {x : Except ε α} {f : α → β} {b : β}
    (h : x.toOption.map f = some b) : ∃ a, x = .ok a ∧ f a = b := by
  cases x with
  | error err => cases h
  | ok a => exact ⟨a, rfl, Option.some.inj h⟩

/-- A helper adds a warning and leaves the confidence as it was. -/
theorem exists_warning_enhance (q : Query) (answer : Enhancement) :
    (q.enhance answer).confidence = q.confidence ∧ (q.enhance answer).success = q.success ∧
      ∃ warning, (q.enhance answer).warnings = q.warnings ++ [warning] := by
  unfold Query.enhance
  split
  · exact ⟨rfl, rfl, _, rfl⟩
  · exact ⟨rfl, rfl, _, rfl⟩

/-- A helper is not asked about a query of high confidence. -/
theorem request?_of_high (e : Engine) {q : Query} (h : q.confidence = .high) :
    e.request? q = none := by
  have hrank : ¬q.confidence.rank < e.enhanceBelow.rank := by
    rw [h]
    cases e.enhanceBelow <;> decide
  simp [request?, hrank]

/-- A query is a draft, or what a helper that was asked about the draft makes of it. -/
theorem exists_draft_of_query {e : Engine} {dax : String} {q : Query} (hq : e.query dax = .ok q) :
    ∃ q₀, e.draft dax = .ok q₀ ∧ (q = q₀ ∨ (∃ request, e.request? q₀ = some request) ∧
      ∃ answer, q = q₀.enhance answer) := by
  rw [query] at hq
  cases hdraft : e.draft dax with
  | error err =>
    rw [hdraft] at hq
    cases hq
  | ok q₀ =>
    rw [hdraft] at hq
    refine ⟨q₀, rfl, ?_⟩
    dsimp only [bind, Except.bind] at hq
    split at hq
    · next enhancer request _ hrequest =>
      cases hq
      exact .inr ⟨⟨request, hrequest⟩, _, rfl⟩
    · cases hq
      exact .inl rfl

/-- A draft is what the state after rendering says. -/
theorem exists_state_of_draft {e : Engine} {dax : String} {q : Query} (hq : e.draft dax = .ok q)
    (hs : q.success = true) :
    ∃ sql s, Rendering.renderExpr e.target (parseSource dax).tree {} = (.ok sql, s) ∧
      q = .ofState dax sql s := by
  rw [draft] at hq
  split at hq
  · rcases hrun : Rendering.renderExpr e.target (parseSource dax).tree {} with ⟨err | sql, s⟩
    · rw [hrun] at hq
      cases hq
    · rw [hrun] at hq
      cases hq
      exact ⟨sql, s, rfl, rfl⟩
  · cases hq
    cases hs

/-- **A query is what the state after rendering says**, but that a helper that was asked about it
has added a warning. -/
theorem exists_state_of_query {e : Engine} {dax : String} {q : Query} (hq : e.query dax = .ok q)
    (hs : q.success = true) :
    ∃ sql s, Rendering.renderExpr e.target (parseSource dax).tree {} = (.ok sql, s) ∧
      q.confidence = s.confidence ∧ (q = .ofState dax sql s ∨
        s.confidence ≠ .high ∧ ∃ warning, q.warnings = s.warnings ++ [warning]) := by
  obtain ⟨q₀, hdraft, rfl | ⟨⟨request, hrequest⟩, answer, rfl⟩⟩ := exists_draft_of_query hq
  · obtain ⟨sql, s, hrun, rfl⟩ := exists_state_of_draft hdraft hs
    exact ⟨sql, s, hrun, rfl, .inl rfl⟩
  · obtain ⟨hconf, hsuccess, hwarn⟩ := exists_warning_enhance q₀ answer
    obtain ⟨sql, s, hrun, rfl⟩ := exists_state_of_draft hdraft (hsuccess ▸ hs)
    refine ⟨sql, s, hrun, hconf, .inr ⟨fun hhigh => ?_, hwarn⟩⟩
    rw [e.request?_of_high hhigh] at hrequest
    cases hrequest

/-- The SQL of a query that no helper has rewritten is the one that was rendered. -/
theorem renderExpr_of_query {e : Engine} {dax : String} {q : Query} (hq : e.query dax = .ok q)
    (hs : q.success = true) (hown : q.enhancedBy = none) :
    (Rendering.renderExpr e.target (parseSource dax).tree {}).1 = .ok q.sql := by
  obtain ⟨q₀, hdraft, rfl | ⟨-, answer, rfl⟩⟩ := exists_draft_of_query hq
  · obtain ⟨sql, s, hrun, rfl⟩ := exists_state_of_draft hdraft hs
    rw [hrun]
    rfl
  · obtain ⟨-, hsuccess, -⟩ := exists_warning_enhance q₀ answer
    obtain ⟨sql, s, hrun, rfl⟩ := exists_state_of_draft hdraft (hsuccess ▸ hs)
    rw [hrun]
    unfold Query.enhance at hown ⊢
    split
    · next rewritten => simp [rewritten] at hown
    · rfl

/-- **What the confidence of a query assures.**  When a query of high confidence is made with the
catalog, there are no warnings, every function has a pattern, and every table and column is one of
the schema; without a schema there are none but the words for intervals and sort orders.  A query of
low confidence has a warning. -/
theorem resolved_of_query_high (e : Engine) (hlib : e.patterns = .builtin) (dax : String)
    (q : Query) (hq : e.query dax = .ok q) (hs : q.success = true) :
    (q.confidence = .high → q.warnings = [] ∧
      (∀ node ∈ (parseSource dax).tree.nodes, IsResolved e.target node) ∧
      (e.target.schema? = none → ∀ node ∈ (parseSource dax).tree.nodes,
        (∀ ref, node ≠ .column ref) ∧ ∀ name, node = .table name →
          Text.upper name ∈ ["DAY", "WEEK", "MONTH", "QUARTER", "YEAR", "ASC", "DESC"])) ∧
    (q.confidence = .low → q.warnings ≠ []) := by
  obtain ⟨sql, s, hrun, hconf, hquery⟩ := exists_state_of_query hq hs
  have hleads := Rendering.led_renderExpr e.target (parseSource dax).tree {}
  rw [hrun] at hleads
  constructor
  · intro hhigh
    rw [hconf] at hhigh
    have hresolved := (Rendering.vouches_renderExpr hlib _ {} sql s hrun hhigh).2
    refine ⟨?_, hresolved, fun hnone node hnode => ⟨?_, ?_⟩⟩
    · rcases hquery with rfl | ⟨hne, -⟩
      · exact (hleads.high hhigh).2
      · exact absurd hhigh hne
    · rintro ⟨table | table, column⟩ rfl
      · obtain ⟨_, hsome, -⟩ := hresolved _ hnode
        rw [hnone] at hsome
        cases hsome
      · obtain ⟨_, hsome, -⟩ := hresolved _ hnode
        rw [hnone] at hsome
        cases hsome
    · rintro name rfl
      rcases hresolved _ hnode with ⟨_, hsome, -⟩ | hword
      · rw [hnone] at hsome
        cases hsome
      · exact hword
  · intro hlow
    rw [hconf] at hlow
    rcases hquery with rfl | ⟨-, warning, hwarn⟩
    · exact (hleads.low hlow).resolve_left (by decide)
    · simp [hwarn]

/-- The sum of a column of the retail schema is of high confidence. -/
theorem resolved_sum_of_amount :
    ∃ q, Engine.query { schema := some .retail } "SUM(Sales[Amount])" = .ok q ∧
      q.confidence = .high ∧ q.warnings = [] ∧
      ∀ node ∈ (parseSource "SUM(Sales[Amount])").tree.nodes,
        IsResolved (Engine.target { schema := some .retail }) node := by
  have hview : ((Engine.query { schema := some .retail } "SUM(Sales[Amount])").toOption.map
      fun q => (q.success, q.confidence)) = some (true, .high) := by
    rw [PatternLibrary.builtin_eq]
    decide +kernel
  obtain ⟨q, hq, hends⟩ := exists_of_map_toOption hview
  obtain ⟨hs, hhigh⟩ := Prod.mk.inj hends
  have hlib : (Engine.mk (some .retail) .builtin .snowflake none .medium).patterns = .builtin := by
    dsimp only
  obtain ⟨hwarn, hresolved, -⟩ := (resolved_of_query_high _ hlib _ q hq hs).1 hhigh
  exact ⟨q, hq, hhigh, hwarn, hresolved⟩

end MeasureSql.Engine
