import MeasureSql.Proofs.Pattern.Visibility
import MeasureSql.Proofs.Render.Vouching
import MeasureSql.Proofs.Render.Written

/-!
# Conditions on rows

A filtered table is rendered in three ways: as the rows of an iterator, as a filter in force, and as
a table of its own.  Its condition gets into the SQL of its own call in each of them, but that text
is lost where the text of a table is: an iterator keeps no trace of its source but the condition,
the filters in force keep none of a filtered table but the condition, and some templates have no
hole for a table argument.  `shown` collects the conditions that stand in none of these places.

## Main definitions

* `Route` — the rules of calls.
* `shown` — the conditions on rows that are seen, each with the tables among whose rows it is asked.
* `predicates` — all conditions on rows.

## Main results

* `renderCall_eq` — a call is rendered by its rule.
* `map_shown_sublist` — the conditions that are seen are some of all conditions.
-/

namespace MeasureSql

open Dax
open scoped List

namespace Rendering

/-! ## Routes -/

/-- The rules of calls. -/
inductive Route where
  | calculate
  | calculateTable
  | total
  | switch
  | projection
  | iterator
  | generic
  deriving DecidableEq, Repr

/-- The rule of a call, by the name of its function. -/
def route (name : String) : Route :=
  match Text.asciiUpper name with
  | "CALCULATE" => .calculate
  | "CALCULATETABLE" => .calculateTable
  | "TOTALYTD" | "TOTALQTD" | "TOTALMTD" => .total
  | "SWITCH" => .switch
  | "SUMMARIZE" | "ADDCOLUMNS" | "SELECTCOLUMNS" => .projection
  | "SUMX" | "AVERAGEX" | "COUNTX" | "MINX" | "MAXX" => .iterator
  | _ => .generic

/-- A call is rendered by its rule. -/
theorem renderCall_eq (t : Target) (sub : Expr → Rendering String) (name : String)
    (args : List Expr) : renderCall t sub name args = match route name with
      | .calculate | .calculateTable => filteredCall t sub name args
      | .total => totalToDateCall t sub name args
      | .switch => switchCall t sub name args
      | .projection => projectionCall t sub name args
      | .iterator => iteratorCall t sub name args
      | .generic => genericCall t sub name args := by
  unfold renderCall route
  split <;> simp only [*]

/-! ## Conditions on rows -/

/-- A condition on rows, with the tables among whose rows it is asked. -/
abbrev RowPredicate := List String × Expr

/-- Is it the function that filters the rows of a table? -/
def isFilter (name : String) : Bool :=
  Text.asciiUpper name == "FILTER"

/-- Does the function take filters away? -/
def takesAway : Expr → Bool
  | .call name _ => ["ALL", "ALLEXCEPT", "REMOVEFILTERS"].contains (Text.asciiUpper name)
  | _ => false

/-- The tables whose rows are iterated inside a table argument. -/
def rowsOf (t : Target) : Expr → List String
  | .table name => [tableAt t name]
  | _ => []

/-- The condition of a call that filters the rows of a table. -/
def ownPredicate? (name : String) : List Expr → Option Expr
  | [_, condition] => if isFilter name then some condition else none
  | _ => none

/-- The conditions on rows among some nodes. -/
def predicates (nodes : List Expr) : List Expr :=
  nodes.filterMap fun
    | .call name args => ownPredicate? name args
    | _ => none

mutual

/-- The conditions on rows that are seen in the SQL of an expression. -/
def shown (t : Target) (rows : List String) : Expr → List RowPredicate
  | .literal _ | .column _ | .table _ => []
  | .call name args => shownCall t rows name args
  | .binary l _ r => shown t rows l ++ shown t rows r
  | .unary _ e => shown t rows e
  | .variable _ value => shownOpt t rows value
  | .cond c a e => shown t rows c ++ shown t rows a ++ shownOpt t rows e
  | .measure _ body _ _ => shown t rows body

/-- The conditions that are seen in the SQL of an optional part. -/
def shownOpt (t : Target) (rows : List String) : Option Expr → List RowPredicate
  | none => []
  | some e => shown t rows e

/-- The conditions that are seen in the SQL of a call.  Of a table that a call filters, iterates or
evaluates under filters, the text is not seen. -/
def shownCall (t : Target) (rows : List String) (name : String) : List Expr → List RowPredicate
  | [] => []
  | first :: rest => match route name with
    | .calculate => shown t rows first ++
      if (Expr.nodesAll rest).any takesAway then [] else shownFilters t rows rest
    | .calculateTable =>
      if (Expr.nodesAll rest).any takesAway then [] else shownFilters t rows rest
    | .total => shown t rows first ++ shownDates t rows rest
    | .switch => shown t rows first ++ shownAll t rows rest
    | .projection => shown t rows first ++ shownAll t (rows ++ rowsOf t first) rest
    | .iterator => shownSource t rows first ++
      shownHead t (rows ++ rowsOf t (iterated first).1) rest
    | .generic => ((ownPredicate? name (first :: rest)).map (rows, ·)).toList ++
      ((if (t.patterns.get? name).any (·.shows 0) then shown t rows first else []) ++
        shownArgs t rows (fun i => (t.patterns.get? name).any (·.shows (i + 1))) rest)

/-- The conditions that are seen in a list of expressions. -/
def shownAll (t : Target) (rows : List String) : List Expr → List RowPredicate
  | [] => []
  | e :: es => shown t rows e ++ shownAll t rows es

/-- The conditions that are seen in the first expression of a list. -/
def shownHead (t : Target) (rows : List String) : List Expr → List RowPredicate
  | [] => []
  | e :: _ => shown t rows e

/-- The conditions that are seen in those arguments that a template shows. -/
def shownArgs (t : Target) (rows : List String) (seen : Nat → Bool) : List Expr → List RowPredicate
  | [] => []
  | e :: es => (if seen 0 then shown t rows e else []) ++
    shownArgs t rows (fun i => seen (i + 1)) es

/-- The condition on the rows of a filtered table, with those that are seen in it. -/
def shownGuard (t : Target) (rows : List String) : List Expr → List RowPredicate
  | [table, condition] =>
    (rows ++ rowsOf t table, condition) :: shown t (rows ++ rowsOf t table) condition
  | _ => []

/-- The conditions of the rows of an iterator. -/
def shownSource (t : Target) (rows : List String) : Expr → List RowPredicate
  | .call name args => if isFilter name then shownGuard t rows args else []
  | _ => []

/-- The conditions that are seen in the dates of a total and in its filters. -/
def shownDates (t : Target) (rows : List String) : List Expr → List RowPredicate
  | [] => []
  | dates :: filters =>
    if (Expr.nodesAll filters).any takesAway then []
    else shown t rows dates ++ shownFilters t rows filters

/-- The conditions that are seen in a filter in force. -/
def shownFilter (t : Target) (rows : List String) : Expr → List RowPredicate
  | .call name args =>
    if Text.asciiUpper name = "KEEPFILTERS" then shownFilters t rows args
    else if isFilter name && args.length == 2 then shownGuard t rows args
    else shownCall t rows name args
  | .literal _ | .column _ | .table _ => []
  | .binary l _ r => shown t rows l ++ shown t rows r
  | .unary _ e => shown t rows e
  | .variable _ value => shownOpt t rows value
  | .cond c a e => shown t rows c ++ shown t rows a ++ shownOpt t rows e
  | .measure _ body _ _ => shown t rows body

/-- The conditions that are seen in the filters in force. -/
def shownFilters (t : Target) (rows : List String) : List Expr → List RowPredicate
  | [] => []
  | e :: es => shownFilter t rows e ++ shownFilters t rows es

end

/-! ### What is seen is some of what there is -/

@[simp] theorem predicates_nil : predicates [] = [] := rfl

@[simp] theorem predicates_append (xs ys : List Expr) :
    predicates (xs ++ ys) = predicates xs ++ predicates ys := by
  simp [predicates]

/-- A call adds its own condition. -/
theorem predicates_call (name : String) (args nodes : List Expr) :
    predicates (.call name args :: nodes) =
      (ownPredicate? name args).toList ++ predicates nodes := by
  cases h : ownPredicate? name args <;> simp [predicates, h]

/-- Nothing but a call has a condition on rows. -/
theorem predicates_cons {e : Expr} (he : ∀ name args, e ≠ .call name args) (nodes : List Expr) :
    predicates (e :: nodes) = predicates nodes := by
  cases e with
  | call name args => exact absurd rfl (he name args)
  | _ => simp [predicates]

mutual

/-- **The conditions that are seen are some of all conditions**, in order. -/
theorem map_shown_sublist (t : Target) (rows : List String) :
    ∀ e : Expr, (shown t rows e).map (·.2) <+ predicates e.nodes
  | .literal _ | .column _ | .table _ => by simp [shown]
  | .call name args => by
    rw [shown, Expr.nodes, predicates_call]
    exact map_shownCall_sublist t rows name args
  | .binary l op r => by
    rw [shown, Expr.nodes, predicates_cons (by simp), List.map_append, predicates_append]
    exact (map_shown_sublist t rows l).append (map_shown_sublist t rows r)
  | .unary op e => by
    rw [shown, Expr.nodes, predicates_cons (by simp)]
    exact map_shown_sublist t rows e
  | .variable name value => by
    rw [shown, Expr.nodes, predicates_cons (by simp)]
    exact map_shownOpt_sublist t rows value
  | .cond c a e => by
    rw [shown, Expr.nodes, predicates_cons (by simp)]
    simp only [List.map_append, predicates_append]
    exact ((map_shown_sublist t rows c).append (map_shown_sublist t rows a)).append
      (map_shownOpt_sublist t rows e)
  | .measure _ body _ _ => by
    rw [shown, Expr.nodes, predicates_cons (by simp)]
    exact map_shown_sublist t rows body

theorem map_shownOpt_sublist (t : Target) (rows : List String) :
    ∀ e : Option Expr, (shownOpt t rows e).map (·.2) <+ predicates (Expr.nodesOpt e)
  | none => by simp [shownOpt]
  | some e => by
    rw [shownOpt, Expr.nodesOpt]
    exact map_shown_sublist t rows e

theorem map_shownCall_sublist (t : Target) (rows : List String) (name : String) :
    ∀ args : List Expr, (shownCall t rows name args).map (·.2) <+
      (ownPredicate? name args).toList ++ predicates (Expr.nodesAll args)
  | [] => by simp [shownCall]
  | first :: rest => by
    have hfilters : (if (Expr.nodesAll rest).any takesAway then [] else
        shownFilters t rows rest).map (·.2) <+ predicates (Expr.nodesAll rest) := by
      split
      · simp
      · exact map_shownFilters_sublist t rows rest
    rw [shownCall, Expr.nodesAll, predicates_append]
    cases route name with
    | calculate =>
      rw [List.map_append]
      exact ((map_shown_sublist t rows first).append hfilters).trans (List.sublist_append_right _ _)
    | calculateTable =>
      exact (hfilters.trans (List.sublist_append_right _ _)).trans (List.sublist_append_right _ _)
    | total =>
      simp only [List.map_append]
      exact ((map_shown_sublist t rows first).append (map_shownDates_sublist t rows rest)).trans
        (List.sublist_append_right _ _)
    | switch =>
      simp only [List.map_append]
      exact ((map_shown_sublist t rows first).append (map_shownAll_sublist t rows rest)).trans
        (List.sublist_append_right _ _)
    | projection =>
      simp only [List.map_append]
      exact ((map_shown_sublist t rows first).append (map_shownAll_sublist t _ rest)).trans
        (List.sublist_append_right _ _)
    | iterator =>
      simp only [List.map_append]
      exact ((map_shownSource_sublist t rows first).append (map_shownHead_sublist t _ rest)).trans
        (List.sublist_append_right _ _)
    | generic =>
      simp only [List.map_append]
      refine List.Sublist.append ?_ (List.Sublist.append ?_ (map_shownArgs_sublist t rows _ rest))
      · cases ownPredicate? name (first :: rest) <;> simp
      · split
        · exact map_shown_sublist t rows first
        · simp

theorem map_shownAll_sublist (t : Target) (rows : List String) :
    ∀ es : List Expr, (shownAll t rows es).map (·.2) <+ predicates (Expr.nodesAll es)
  | [] => by simp [shownAll]
  | e :: es => by
    rw [shownAll, Expr.nodesAll, List.map_append, predicates_append]
    exact (map_shown_sublist t rows e).append (map_shownAll_sublist t rows es)

theorem map_shownHead_sublist (t : Target) (rows : List String) :
    ∀ es : List Expr, (shownHead t rows es).map (·.2) <+ predicates (Expr.nodesAll es)
  | [] => by simp [shownHead]
  | e :: es => by
    rw [shownHead, Expr.nodesAll, predicates_append]
    exact (map_shown_sublist t rows e).trans (List.sublist_append_left _ _)

theorem map_shownArgs_sublist (t : Target) (rows : List String) (seen : Nat → Bool) :
    ∀ es : List Expr, (shownArgs t rows seen es).map (·.2) <+ predicates (Expr.nodesAll es)
  | [] => by simp [shownArgs]
  | e :: es => by
    rw [shownArgs, Expr.nodesAll, List.map_append, predicates_append]
    refine List.Sublist.append ?_ (map_shownArgs_sublist t rows _ es)
    split
    · exact map_shown_sublist t rows e
    · simp

theorem map_shownGuard_sublist (t : Target) (rows : List String) {name : String}
    (h : isFilter name = true) : ∀ args : List Expr, (shownGuard t rows args).map (·.2) <+
      (ownPredicate? name args).toList ++ predicates (Expr.nodesAll args)
  | [table, condition] => by
    have hcondition := map_shown_sublist t (rows ++ rowsOf t table) condition
    rw [shownGuard, ownPredicate?, if_pos h]
    refine List.Sublist.cons_cons condition (hcondition.trans ?_)
    simp [Expr.nodesAll]
  | [] | [_] | _ :: _ :: _ :: _ => by simp [shownGuard]

theorem map_shownSource_sublist (t : Target) (rows : List String) :
    ∀ e : Expr, (shownSource t rows e).map (·.2) <+ predicates e.nodes
  | .call name args => by
    rw [shownSource, Expr.nodes, predicates_call]
    split
    · next hfilter => exact map_shownGuard_sublist t rows hfilter args
    · simp
  | .literal _ | .column _ | .table _ | .binary _ _ _ | .unary _ _ | .variable _ _ | .cond _ _ _
  | .measure _ _ _ _ => by simp [shownSource]

theorem map_shownDates_sublist (t : Target) (rows : List String) :
    ∀ es : List Expr, (shownDates t rows es).map (·.2) <+ predicates (Expr.nodesAll es)
  | [] => by simp [shownDates]
  | dates :: filters => by
    rw [shownDates, Expr.nodesAll, predicates_append]
    split
    · simp
    · rw [List.map_append]
      exact (map_shown_sublist t rows dates).append (map_shownFilters_sublist t rows filters)

theorem map_shownFilter_sublist (t : Target) (rows : List String) :
    ∀ e : Expr, (shownFilter t rows e).map (·.2) <+ predicates e.nodes
  | .call name args => by
    rw [shownFilter, Expr.nodes, predicates_call]
    split
    · exact (map_shownFilters_sublist t rows args).trans (List.sublist_append_right _ _)
    · split
      · next hfilter =>
        simp only [Bool.and_eq_true] at hfilter
        exact map_shownGuard_sublist t rows hfilter.1 args
      · exact map_shownCall_sublist t rows name args
  | .literal _ | .column _ | .table _ => by simp [shownFilter]
  | .binary l op r => by
    rw [shownFilter, Expr.nodes, predicates_cons (by simp), List.map_append, predicates_append]
    exact (map_shown_sublist t rows l).append (map_shown_sublist t rows r)
  | .unary op e => by
    rw [shownFilter, Expr.nodes, predicates_cons (by simp)]
    exact map_shown_sublist t rows e
  | .variable name value => by
    rw [shownFilter, Expr.nodes, predicates_cons (by simp)]
    exact map_shownOpt_sublist t rows value
  | .cond c a e => by
    rw [shownFilter, Expr.nodes, predicates_cons (by simp)]
    simp only [List.map_append, predicates_append]
    exact ((map_shown_sublist t rows c).append (map_shown_sublist t rows a)).append
      (map_shownOpt_sublist t rows e)
  | .measure _ body _ _ => by
    rw [shownFilter, Expr.nodes, predicates_cons (by simp)]
    exact map_shown_sublist t rows body

theorem map_shownFilters_sublist (t : Target) (rows : List String) :
    ∀ es : List Expr, (shownFilters t rows es).map (·.2) <+ predicates (Expr.nodesAll es)
  | [] => by simp [shownFilters]
  | e :: es => by
    rw [shownFilters, Expr.nodesAll, List.map_append, predicates_append]
    exact (map_shownFilter_sublist t rows e).append (map_shownFilters_sublist t rows es)

end

end Rendering

end MeasureSql
