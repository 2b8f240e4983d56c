import MeasureSql.Proofs.Dax.Inlining
import MeasureSql.Proofs.Render.Nodes
import MeasureSql.Render.Expr

/-!
# What variables may hide

Some rules look at the shape of what they are given: a comparison looks for `BLANK`, an iterator for
a table or a filtered table, a filter for the functions that take filters away, and so on.  A
variable in such a place is a variable to the rule, whatever it stands for.  An expression is clear
when no variable of it hides from a rule the shape that the rule looks for; the questions are asked
here rule by rule, in the order of the rules.

A condition without a column is filed under its own text.  In a clear expression such a text may
depend neither on the parentheses around what a variable stands for nor on the filters in force; an
expression of which that is true is steady.

## Main definitions

* `Expr.steady` — the text depends on no parentheses of variables and on no filters.
* `clearFilter`, `clearCall` — what a filter and what a call looks for is in sight.
* `Expr.clear` — that is so all through the expression.
-/

namespace MeasureSql

open Dax

/-! ## Steady expressions -/

/-- Is it a function that evaluates an expression under its own filters? -/
def changesFilters (name : String) : Bool :=
  ["CALCULATE", "CALCULATETABLE", "TOTALYTD", "TOTALQTD", "TOTALMTD"].contains
    (Text.asciiUpper name)

namespace Dax.Expr

mutual

/-- No variable in the expression stands for an operation, and nothing in it is evaluated under
filters of its own. -/
def steady : Expr → Bool
  | .literal _ | .column _ | .table _ => true
  | .call name args => !changesFilters name && steadyAll args
  | .binary l _ r => l.steady && r.steady
  | .unary _ e => e.steady
  | .variable _ none => true
  | .variable _ (some value) => !value.inlined.hasOperator && value.steady
  | .cond c a e => c.steady && a.steady && steadyOpt e
  | .measure _ body _ _ => body.steady

/-- The same for each expression of a list. -/
def steadyAll : List Expr → Bool
  | [] => true
  | e :: es => e.steady && steadyAll es

/-- The same for an optional part. -/
def steadyOpt : Option Expr → Bool
  | none => true
  | some e => e.steady

end

end Dax.Expr

/-! ## Filters -/

namespace Rendering

/-- Is it a table with a condition on its rows? -/
def isFiltered (e : Expr) : Bool :=
  (iterated e).2.isSome

/-- Is it more to the filters than a condition? -/
def isFilterRule : Expr → Bool
  | .call name args =>
    ["ALL", "REMOVEFILTERS", "ALLEXCEPT", "KEEPFILTERS"].contains (Text.asciiUpper name)
      || isFiltered (.call name args)
  | _ => false

/-- A condition is filed under a column, or its text is steady. -/
def clearKey (e : Expr) : Bool :=
  e.firstColumn?.isSome || e.steady

/-- A table or a column whose filters are taken away is in sight. -/
def clearTarget (e : Expr) : Bool :=
  e.shows Expr.isTable && e.shows Expr.isColumn

/-- A table and the columns whose filters are kept are in sight. -/
def clearKept : List Expr → Bool
  | [] => true
  | target :: columns =>
    clearTarget target && (!target.isTable || columns.all fun e => e.shows Expr.isColumn)

mutual

/-- What a filter looks for is in sight. -/
def clearFilter : Expr → Bool
  | .call name args =>
    match Text.asciiUpper name with
    | "ALL" | "REMOVEFILTERS" => args.all clearTarget
    | "ALLEXCEPT" => clearKept args
    | "KEEPFILTERS" => clearFilters args
    | "FILTER" => match args with
      | [table, predicate] => table.shows Expr.isTable && clearKey predicate
      | _ => clearKey (.call name args)
    | _ => clearKey (.call name args)
  | other => other.shows isFilterRule && clearKey other

/-- The same for each filter of a list. -/
def clearFilters : List Expr → Bool
  | [] => true
  | e :: es => clearFilter e && clearFilters es

end

/-! ## Calls -/

/-- Does a pattern make something of the table of its arguments? -/
def takesTable (p : Pattern) : Bool :=
  p.params.contains "table" || (Template.holes p.template).contains "table"

/-- The columns that stand for their table are in sight. -/
def clearGeneric (t : Target) (name : String) (args : List Expr) : Bool :=
  match t.patterns.get? name with
  | none => true
  | some p => !takesTable p || args.all fun e => e.shows Expr.isColumn

/-- The table of an iterator and the condition on its rows are in sight. -/
def clearIterator (t : Target) (name : String) : List Expr → Bool
  | source :: _ :: _ => (t.patterns.get? name).isNone ||
    (source.shows isFiltered && (iterated source).1.shows Expr.isTable)
  | _ => true

/-- The literal `TRUE` is in sight. -/
def clearSwitch : List Expr → Bool
  | subject :: _ :: _ :: _ => subject.shows isTrue
  | _ => true

/-- The texts that name the columns of a projection are in sight. -/
def clearLabels : List Expr → Bool
  | .literal (.string _) :: _ :: rest => clearLabels rest
  | e :: rest => (rest.isEmpty || e.shows Expr.isText) && clearLabels rest
  | [] => true

/-- The table of a projection and the names of its columns are in sight. -/
def clearProjection (t : Target) (name : String) : List Expr → Bool
  | source :: rest => (t.patterns.get? name).isNone ||
    (source.shows Expr.isTable && clearLabels rest)
  | [] => true

/-- What the filters of a call look for is in sight. -/
def clearFiltered : List Expr → Bool
  | _ :: filters => clearFilters filters
  | [] => true

/-- What the period and the filters of a total look for is in sight. -/
def clearTotal (t : Target) (name : String) : List Expr → Bool
  | _ :: dates :: filters => clearGeneric t (periodOf (Text.asciiUpper name)) [dates] &&
    clearKey dates && clearFilters filters
  | _ => true

/-- What the rule of a call looks for is in sight. -/
def clearCall (t : Target) (name : String) (args : List Expr) : Bool :=
  match Text.asciiUpper name with
  | "CALCULATE" | "CALCULATETABLE" => clearFiltered args
  | "TOTALYTD" | "TOTALQTD" | "TOTALMTD" => clearTotal t name args
  | "SWITCH" => clearSwitch args
  | "SUMMARIZE" | "ADDCOLUMNS" | "SELECTCOLUMNS" => clearProjection t name args
  | "SUMX" | "AVERAGEX" | "COUNTX" | "MINX" | "MAXX" => clearIterator t name args
  | _ => clearGeneric t name args

/-- Is it a comparison that asks for `NULL` when one side has no value? -/
def comparesValues (op : BinaryOp) : Bool :=
  op == .equals || op == .notEquals

/-- A side without a value is in sight. -/
def clearComparison (l : Expr) (op : BinaryOp) (r : Expr) : Bool :=
  !comparesValues op || (l.shows Expr.isBlank && r.shows Expr.isBlank)

end Rendering

/-! ## Expressions -/

namespace Dax.Expr

open Rendering

mutual

/-- **No variable hides from a rule the shape that the rule looks for**, all through the expression
and the values of its variables. -/
def clear (t : Target) : Expr → Bool
  | .literal _ | .column _ | .table _ => true
  | .call name args => clearCall t name args && clearAll t args
  | .binary l op r => clearComparison l op r && l.clear t && r.clear t
  | .unary _ e => e.clear t
  | .variable _ value => clearOpt t value
  | .cond c a e => c.clear t && a.clear t && clearOpt t e
  | .measure _ body _ _ => body.clear t

/-- The same for each expression of a list. -/
def clearAll (t : Target) : List Expr → Bool
  | [] => true
  | e :: es => e.clear t && clearAll t es

/-- The same for an optional part. -/
def clearOpt (t : Target) : Option Expr → Bool
  | none => true
  | some e => e.clear t

end

variable {t : Target}

theorem clear_of_clearAll {es : List Expr} (h : clearAll t es = true) :
    ∀ e ∈ es, e.clear t = true := by
  induction es with
  | nil => exact fun e he => nomatch he
  | cons e es ih =>
    rw [clearAll, Bool.and_eq_true] at h
    exact List.forall_mem_cons.mpr ⟨h.1, ih h.2⟩

/-- The children of a clear expression are clear. -/
theorem clear_of_mem_children {e : Expr} (h : e.clear t = true) :
    ∀ p ∈ e.children, p.clear t = true := by
  cases e with
  | literal _ | column _ | table _ => exact List.forall_mem_nil _
  | call name args =>
    rw [clear, Bool.and_eq_true] at h
    exact clear_of_clearAll h.2
  | binary l op r =>
    rw [clear, Bool.and_eq_true, Bool.and_eq_true] at h
    simp [children, h.1.2, h.2]
  | «variable» name value =>
    cases value with
    | none => exact List.forall_mem_nil _
    | some value => simpa [children, clear, clearOpt] using h
  | cond c a e =>
    rw [clear, Bool.and_eq_true, Bool.and_eq_true] at h
    cases e with
    | none => simp [children, h.1.1, h.1.2]
    | some e => simpa [children, h.1.1, h.1.2, clearOpt] using h.2
  | unary _ e | measure _ e => simpa [children, clear] using h

/-- Every node of a clear expression is clear. -/
theorem clear_of_mem_nodes {e node : Expr} (h : e.clear t = true) (hnode : node ∈ e.nodes) :
    node.clear t = true :=
  forall_mem_nodes (fun _ => clear_of_mem_children) h node hnode

theorem steady_of_steadyAll {es : List Expr} (h : steadyAll es = true) :
    ∀ e ∈ es, e.steady = true := by
  induction es with
  | nil => exact fun e he => nomatch he
  | cons e es ih =>
    rw [steadyAll, Bool.and_eq_true] at h
    exact List.forall_mem_cons.mpr ⟨h.1, ih h.2⟩

end Dax.Expr

end MeasureSql
