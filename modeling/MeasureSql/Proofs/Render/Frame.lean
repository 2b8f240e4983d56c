import MeasureSql.Proofs.Pattern.Catalog
import MeasureSql.Proofs.Render.Moves
import MeasureSql.Schema.Retail

/-!
# What rendering leaves as it was

An expression is rendered somewhere inside a larger one, and what comes after it relies on what it
leaves behind: the filters in force and the rows must be those from before, the queries around it
must not be touched except for the tables that the innermost one reads, and what adds up must only
grow.  But for the rows all this holds of every move, and so of every way that moves lead; the rows
are those from before if all that were gone into are left.

## Main definitions

* `Grows` — a list to which new elements were added.
* `Held`, `Kept` — what moves leave of the state, with and without rows at the end.

## Main results

* `Leads.held`, `Leads.kept` — moves keep it.
* `restored_renderExpr` — what rendering restores, with SQL and with an error.
-/

namespace MeasureSql.Rendering

open Dax

/-! ## Lists that grow -/

@[simp] theorem mem_addNew {x y : String} {xs : List String} :
    y ∈ addNew xs x ↔ y ∈ xs ∨ y = x := by
  unfold addNew
  split
  · next h =>
    have hx : x ∈ xs := List.contains_iff_mem.mp h
    exact ⟨.inl, fun hy => hy.elim id fun heq => heq ▸ hx⟩
  · simp

@[simp] theorem mem_foldl_addNew {y : String} {xs ys : List String} :
    y ∈ ys.foldl addNew xs ↔ y ∈ xs ∨ y ∈ ys := by
  induction ys generalizing xs with
  | nil => simp
  | cons z ys ih => rw [List.foldl_cons, ih, mem_addNew, List.mem_cons, or_assoc]

theorem addNew_of_mem {x : String} {xs : List String} (h : x ∈ xs) : addNew xs x = xs := by
  simp [addNew, h]

/-- Elements were added at the end, and no element twice: a list without repetitions stays one. -/
structure Grows (old new : List String) : Prop where
  extended : old <+: new
  nodup : old.Nodup → new.Nodup

namespace Grows

theorem refl (xs : List String) : Grows xs xs :=
  ⟨List.prefix_rfl, id⟩

theorem trans {xs ys zs : List String} (h : Grows xs ys) (h' : Grows ys zs) : Grows xs zs :=
  ⟨h.extended.trans h'.extended, h'.nodup ∘ h.nodup⟩

theorem addNew (xs : List String) (x : String) : Grows xs (addNew xs x) := by
  unfold Rendering.addNew
  split
  · exact refl xs
  · next hnew =>
    refine ⟨List.prefix_append xs [x], fun hnodup => ?_⟩
    rw [List.contains_iff_mem] at hnew
    have hdistinct : ∀ y ∈ xs, y ≠ x := fun y hy heq => hnew (heq ▸ hy)
    simpa [List.nodup_append, hnodup] using hdistinct

/-- Several elements, one after the other. -/
theorem foldl_addNew (xs ys : List String) : Grows xs (ys.foldl Rendering.addNew xs) := by
  induction ys generalizing xs with
  | nil => exact refl xs
  | cons y ys ih => exact (addNew xs y).trans (ih _)

end Grows

/-! ## Queries that read more tables -/

/-- The innermost query reads some more tables; outside of all queries nothing is recorded. -/
def readAlso (tables : List String) : List (List String) → List (List String)
  | [] => []
  | scope :: outer => tables.foldl addNew scope :: outer

@[simp] theorem length_readAlso (tables : List String) (scopes : List (List String)) :
    (readAlso tables scopes).length = scopes.length := by
  cases scopes <;> simp [readAlso]

@[simp] theorem tail_readAlso (tables : List String) (scopes : List (List String)) :
    (readAlso tables scopes).tail = scopes.tail := by
  cases scopes <;> simp [readAlso]

theorem grows_readAlso (tables : List String) (scopes : List (List String)) :
    Grows (scopes.headD []) ((readAlso tables scopes).headD []) := by
  cases scopes with
  | nil => exact .refl _
  | cons scope outer => exact .foldl_addNew scope tables

theorem run_useTable (table : String) (s : RenderState) :
    useTable table s = (.ok (), { s with
      tablesUsed := addNew s.tablesUsed table, scopes := readAlso [table] s.scopes }) := by
  rcases s with ⟨filters, rowTables, _ | ⟨scope, outer⟩, confidence, patterns, tables, warnings⟩ <;>
    rfl

/-! ## What moves keep -/

/-- What moves leave of the state, wherever they end: the queries around are as many and only the
innermost may read more tables, confidence has not risen, and what adds up has grown. -/
structure Held (s s' : RenderState) : Prop where
  depth : s'.scopes.length = s.scopes.length
  outer : s'.scopes.tail = s.scopes.tail
  top : Grows (s.scopes.headD []) (s'.scopes.headD [])
  confidence : s'.confidence.rank ≤ s.confidence.rank
  patterns : Grows s.patternsApplied s'.patternsApplied
  tables : Grows s.tablesUsed s'.tablesUsed
  warnings : Grows s.warnings s'.warnings

namespace Held

variable {s s' s'' : RenderState}

theorem refl (s : RenderState) : Held s s :=
  ⟨rfl, rfl, .refl _, Nat.le_refl _, .refl _, .refl _, .refl _⟩

theorem trans (h : Held s s') (h' : Held s' s'') : Held s s'' where
  depth := h'.depth.trans h.depth
  outer := h'.outer.trans h.outer
  top := h.top.trans h'.top
  confidence := Nat.le_trans h'.confidence h.confidence
  patterns := h.patterns.trans h'.patterns
  tables := h.tables.trans h'.tables
  warnings := h.warnings.trans h'.warnings

theorem rank_demote_le (a b : Confidence) : (a.demote b).rank ≤ a.rank := by
  unfold Confidence.demote
  split <;> omega

theorem note (level : Confidence) (warning : String) (s : RenderState) :
    Held s (note level warning s).2 :=
  { refl s with
    confidence := rank_demote_le s.confidence level
    warnings := .addNew s.warnings warning }

theorem demote (s : RenderState) : Held s (demote .medium s).2 :=
  { refl s with confidence := rank_demote_le s.confidence .medium }

/-- A table that is read counts for the innermost query only. -/
theorem table (table : String) (s : RenderState) : Held s (useTable table s).2 := by
  rw [run_useTable]
  exact { refl s with
    depth := length_readAlso _ _
    outer := tail_readAlso _ _
    top := grows_readAlso _ _
    tables := .addNew s.tablesUsed table }

theorem pattern (name : String) (s : RenderState) :
    Held s { s with patternsApplied := addNew s.patternsApplied name } :=
  { refl s with patterns := .addNew s.patternsApplied name }

/-- A query of its own leaves those around it alone. -/
theorem scope (h : Held { s with scopes := [] :: s.scopes } s') :
    Held s { s' with scopes := s'.scopes.tail } := by
  have houter : s'.scopes.tail = s.scopes := h.outer
  exact { h with
    depth := by rw [houter]
    outer := by rw [houter]
    top := by rw [houter]; exact .refl _ }

end Held

/-- What moves leave of the state when they do not end inside rows: the rows as well. -/
structure Kept (s s' : RenderState) : Prop extends Held s s' where
  rows : s'.rowTables = s.rowTables

namespace Leads

variable {free loose : Bool} {s s' : RenderState}

/-- **Moves hold the state** but for the filters and the rows. -/
theorem held (h : Leads free loose s s') : Held s s' := by
  induction h with
  | refl s => exact .refl s
  | trans _ _ ih ih' => exact ih.trans ih'
  | note hlevel warning s => exact .note _ warning s
  | demote s => exact .demote s
  | table table s => exact .table table s
  | pattern name s => exact .pattern name s
  | row _ ih => exact { ih with }
  | stay _ ih => exact { ih with }
  | scope _ ih => exact ih.scope
  | filters f s => exact { Held.refl s with }
  | keep _ ih => exact { ih with }

/-- **Moves keep the state** but for the filters, if they leave all rows. -/
theorem kept (h : Leads free false s s') : Kept s s' :=
  { h.held with rows := h.rowTables_eq }

end Leads

/-- **Rendering restores its context.**  With SQL the filters and the rows are exactly as before,
the queries around are as many and only the innermost may read more tables, confidence has not
risen, and patterns, tables and warnings have only grown, without repetitions.  With an error the
filters and the number of queries around are as before; no rows from before are lost, but those that
the error was found in may be left behind. -/
theorem restored_renderExpr (t : Target) (e : Expr) (s : RenderState) :
    match renderExpr t e s with
    | (.ok _, s') => s'.filters = s.filters ∧ Kept s s'
    | (.error _, s') => s'.filters = s.filters ∧ s'.scopes.length = s.scopes.length ∧
        s.rowTables <+: s'.rowTables := by
  have hleads := led_renderExpr t e s
  generalize renderExpr t e s = run at hleads ⊢
  rcases run with ⟨err | sql, s'⟩
  · exact ⟨hleads.filters_eq, hleads.held.depth, hleads.rowTables_prefix⟩
  · exact ⟨hleads.filters_eq, hleads.kept⟩

/-- A table-maker that fails on a column ends inside the rows of its table. -/
example :
    let t : Target := ⟨some .retail, .builtin, .snowflake⟩
    let sales : Expr := .call "ADDCOLUMNS" [.table "Sales", .literal (.string "x"),
      .call "ſUMMARIZE" [.table "Sales", .column ⟨some "Sales", "Amount"⟩]]
    (renderExpr t sales {}).1.isOk = false ∧ (renderExpr t sales {}).2.rowTables = ["sales"] := by
  dsimp only
  rw [PatternLibrary.builtin_eq]
  decide +kernel

end MeasureSql.Rendering
