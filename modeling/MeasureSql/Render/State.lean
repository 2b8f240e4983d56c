import MeasureSql.FilterContext
import MeasureSql.Pattern.Library
import MeasureSql.Render.Confidence
import MeasureSql.Schema.Basic

/-!
# The state of rendering

While an expression becomes SQL, some things depend on where in the expression one is (the filters
in force, the tables whose rows are iterated, the tables that the enclosing queries read) and some
add up over the whole (confidence, warnings, tables and patterns used).  This module holds that
state and the steps that change it.

## Main definitions

* `Target` — what SQL is written for: schema, patterns and dialect.
* `RenderState`, `Rendering` — the state, and computations on it that may fail.
* `note`, `useTable`, `usePattern` — what adds up.
* `enterRow`, `leaveRow` — going into the rows of a table and out of them.
* `withRow`, `alongRow`, `withScope`, `keepingFilters` — what holds only inside a part of the
  expression.
* `inTurn` — two parts, the second of which is not given up when the first one fails.
-/

namespace MeasureSql

/-- What SQL is written for. -/
structure Target where
  schema : Option Schema
  patterns : PatternLibrary
  dialect : Dialect

/-- The schema, if there is one with any tables. -/
def Target.schema? (t : Target) : Option Schema :=
  t.schema.filter (!·.isEmpty)

/-- The state of rendering. -/
structure RenderState where
  /-- The filters in force. -/
  filters : FilterContext := {}
  /-- The tables whose rows are iterated, the innermost last. -/
  rowTables : List String := []
  /-- The tables that each enclosing query reads, the innermost query first. -/
  scopes : List (List String) := []
  confidence : Confidence := .high
  patternsApplied : List String := []
  tablesUsed : List String := []
  warnings : List String := []
  deriving Repr, Inhabited

/-- Computations on the state that may fail; the state remains known after a failure. -/
abbrev Rendering := ExceptT TemplateError (StateM RenderState)

namespace Rendering

/-- A list with one more element at its end, unless it has it. -/
def addNew (xs : List String) (x : String) : List String :=
  if xs.contains x then xs else xs ++ [x]

/-- Lowers the confidence. -/
def demote (level : Confidence) : Rendering Unit :=
  modify fun s => { s with confidence := s.confidence.demote level }

/-- Lowers the confidence and says why; the same warning is given once. -/
def note (level : Confidence) (warning : String) : Rendering Unit :=
  modify fun s => { s with
    confidence := s.confidence.demote level
    warnings := addNew s.warnings warning }

/-- Without a schema all names are guesses. -/
def noteNoSchema : Rendering Unit :=
  note .medium "No schema context supplied; table and column names were guessed"

/-- Records that a table is read, here and in the innermost enclosing query. -/
def useTable (table : String) : Rendering Unit :=
  modify fun s => { s with
    tablesUsed := addNew s.tablesUsed table
    scopes := match s.scopes with
      | [] => []
      | scope :: outer => addNew scope table :: outer }

/-- Records that a pattern is used, and lowers the confidence by what the pattern is like. -/
def usePattern (t : Target) (p : Pattern) : Rendering Unit := do
  modify fun s => { s with patternsApplied := addNew s.patternsApplied p.name }
  if p.needsSchema && t.schema?.isNone then
    note .medium (p.name ++ " needs schema context for an exact translation")
  if p.complexity = .complex || p.category = .timeIntelligence then
    demote .medium
  if p.isDialectSpecific && !t.dialect.runsTemplates then
    note .medium (p.name ++ " uses Snowflake-specific SQL; review it for " ++ t.dialect.name)

/-- Records the use of a pattern by its name, if there is one. -/
def usePatternNamed (t : Target) (name : String) : Rendering Unit :=
  match t.patterns.get? name with
  | some p => usePattern t p
  | none => pure ()

/-- Goes into the rows of a table, if there is one. -/
def enterRow : Option String → Rendering Unit
  | none => pure ()
  | some table => modify fun s => { s with rowTables := s.rowTables ++ [table] }

/-- Leaves the innermost rows, if those of a table were gone into. -/
def leaveRow : Option String → Rendering Unit
  | none => pure ()
  | some _ => modify fun s => { s with rowTables := s.rowTables.dropLast }

/-- Runs a part inside the rows of a table, if there is one, and leaves them afterwards, also when
the part fails. -/
def withRow {α : Type} (table : Option String) (act : Rendering α) : Rendering α := do
  enterRow table
  let outcome ← observing act
  leaveRow table
  ofExcept outcome

/-- Runs a part inside the rows of a table, if there is one, and leaves them afterwards.  When the
part fails, this is the end: the rows are not left. -/
def alongRow {α : Type} (table : Option String) (act : Rendering α) : Rendering α := do
  enterRow table
  let a ← act
  leaveRow table
  pure a

/-- Runs two parts in turn, the second also when the first one fails; the first error counts. -/
def inTurn {α β : Type} (first : Rendering α) (second : Rendering β) : Rendering (α × β) := do
  let a ← observing first
  let b ← observing second
  let a ← ofExcept a
  let b ← ofExcept b
  pure (a, b)

/-- Runs a part as a query of its own; also returns the tables that it read. -/
def withScope {α : Type} (act : Rendering α) : Rendering (α × List String) :=
  fun s => match act { s with scopes := [] :: s.scopes } with
    | (result, s') => (result.map (·, s'.scopes.headD []), { s' with scopes := s'.scopes.tail })

/-- Runs a part and takes back whatever it did to the filters. -/
def keepingFilters {α : Type} (act : Rendering α) : Rendering α :=
  fun s => match act s with
    | (result, s') => (result, { s' with filters := s.filters })

/-- Changes the filters. -/
def changeFilters (f : FilterContext → FilterContext) : Rendering Unit :=
  modify fun s => { s with filters := f s.filters }

/-- The SQL of a call by its pattern. -/
def fillPattern (t : Target) (p : Pattern) (bindings : Bindings) : Rendering String :=
  match p.render t.dialect bindings with
  | .ok sql => pure sql
  | .error e => throw e

end Rendering

end MeasureSql
