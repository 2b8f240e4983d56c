import MeasureSql.Dax.Source
import MeasureSql.Render.Expr
import MeasureSql.Schema.Summary

/-!
# The engine

From a source text to a query with what there is to know about it.  A text that cannot be parsed
gives a failed query and not an error; the only error is a pattern with a hole that nothing fills.
Below a given confidence a helper outside the library may be asked for a better query.

## Main definitions

* `Query` — SQL, confidence, and what was used and noticed.
* `EnhanceRequest`, `Enhancement` — what a helper is asked, and what it answers.
* `Engine`, `Engine.query` — the engine.
-/

namespace MeasureSql

/-- The SQL of a source text, and what there is to know about it. -/
structure Query where
  dax : String
  sql : String
  success : Bool
  confidence : Confidence
  patternsApplied : List String
  tablesUsed : List String
  warnings : List String
  errors : List String
  enhancedBy : Option String
  deriving DecidableEq, Repr, Inhabited

namespace Query

/-- The query of a text that could not be parsed. -/
def failed (dax : String) (errors : List String) : Query :=
  ⟨dax, "", false, .low, [], [], [], errors, none⟩

/-- The query of a text whose SQL was rendered, from the state after rendering. -/
def ofState (dax sql : String) (s : RenderState) : Query :=
  ⟨dax, sql, true, s.confidence, s.patternsApplied, s.tablesUsed, s.warnings, [], none⟩

/-- A query as a JSON value. -/
def toJson (q : Query) : Json :=
  .obj [("dax", .str q.dax), ("sql", .str q.sql), ("success", .bool q.success),
    ("confidence", .str q.confidence.name), ("patterns_applied", .strings q.patternsApplied),
    ("tables_used", .strings q.tablesUsed), ("warnings", .strings q.warnings),
    ("errors", .strings q.errors), ("enhanced_by", .optional q.enhancedBy)]

end Query

/-- What a helper is asked. -/
structure EnhanceRequest where
  dax : String
  schemaSummary : Option String
  initialSql : Option String
  patternSummary : Option String
  deriving DecidableEq, Repr

/-- A request as a JSON value. -/
def EnhanceRequest.toJson (r : EnhanceRequest) : Json :=
  .obj [("dax", .str r.dax), ("schema_context", .optional r.schemaSummary),
    ("initial_sql", .optional r.initialSql), ("pattern_reference", .optional r.patternSummary)]

/-- What a helper answers. -/
structure Enhancement where
  sql : String
  success : Bool
  modelId : String
  error : Option String
  deriving DecidableEq, Repr, Inhabited

/-- The answer of a helper that failed. -/
def Enhancement.failed (modelId error : String) : Enhancement :=
  ⟨"", false, modelId, some error⟩

/-- Takes a helper's SQL in place of the engine's, or says why not. -/
def Query.enhance (q : Query) (e : Enhancement) : Query :=
  if e.success && !(Text.trim e.sql).isEmpty then
    { q with
      sql := e.sql
      warnings := q.warnings ++ ["SQL rewritten by " ++ e.modelId]
      enhancedBy := some e.modelId }
  else
    let reason := e.error.getD "no SQL returned"
    { q with warnings := q.warnings ++ ["Enhancer " ++ e.modelId ++ " failed: " ++ reason] }

/-- What queries are made for, and the helper that is asked when the confidence is below a level. -/
structure Engine where
  schema : Option Schema := none
  patterns : PatternLibrary := .builtin
  dialect : Dialect := .snowflake
  enhancer : Option (EnhanceRequest → Enhancement) := none
  enhanceBelow : Confidence := .medium

namespace Engine

/-- What the engine writes SQL for. -/
def target (e : Engine) : Target :=
  ⟨e.schema, e.patterns, e.dialect⟩

/-- The query of a source text, as the engine makes it. -/
def draft (e : Engine) (dax : String) : Except TemplateError Query :=
  let parsed := Dax.parseSource dax
  if parsed.success then
    match Rendering.renderExpr e.target parsed.tree {} with
    | (.ok sql, s) => .ok (.ofState dax sql s)
    | (.error err, _) => .error err
  else .ok (.failed dax parsed.errors)

/-- What the helper is asked about a query, if it is asked. -/
def request? (e : Engine) (q : Query) : Option EnhanceRequest :=
  if e.enhancer.isSome && q.success && q.confidence.rank < e.enhanceBelow.rank then
    some ⟨q.dax, e.schema.map Schema.summary, some q.sql, some e.patterns.summary⟩
  else none

/-- The query of a source text, after the helper was asked. -/
def query (e : Engine) (dax : String) : Except TemplateError Query := do
  let q ← e.draft dax
  match e.enhancer, e.request? q with
  | some enhancer, some request => .ok (q.enhance (enhancer request))
  | _, _ => .ok q

/-- The engine in one line. -/
def describe (e : Engine) : String :=
  let context := match e.schema with
    | some s => "Some(" ++ toString s.tables.length ++ ")"
    | none => "None"
  "Translator \x7b context: " ++ context ++ ", patterns: " ++ toString e.patterns.size
    ++ ", dialect: " ++ e.dialect.title ++ ", enhancer: " ++ toString e.enhancer.isSome
    ++ ", enhance_below: " ++ e.enhanceBelow.title ++ " \x7d"

end Engine

end MeasureSql
