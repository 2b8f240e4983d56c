import Mathlib.Data.List.Flatten
import MeasureSql.Proofs.Render.Nodes

/-!
# The first column

A condition is filed under its first column, which is searched depth first and from left to right.
The search goes to every part of an expression but the branches of conditionals, so what it finds is
the first column of the trunk, the expression without those branches.  This is the first column of
the whole as long as no conditional keeps its columns in its branches alone: such a conditional is
passed over, with the columns that it has.

## Main definitions

* `Expr.allColumns` — all columns of an expression.
* `Expr.trunk` — the nodes that stand in no branch of a conditional.
* `Expr.ShowsColumn` — a conditional with columns has one in its condition.

## Main results

* `Expr.firstColumn?_eq_head?_trunk` — what is found is the first column of the trunk.
* `Expr.firstColumn?_eq_head?_allColumns_iff` — when it is the first of all columns.
-/

namespace MeasureSql.Dax.Expr

open List

/-! ## Columns -/

/-- **All columns of an expression**, depth first and from left to right. -/
def allColumns (e : Expr) : List ColumnRef :=
  e.nodes.filterMap ref?

theorem allColumns_eq (e : Expr) :
    e.allColumns = e.ref?.toList ++ e.children.flatMap allColumns := by
  rw [allColumns, nodes_eq, filterMap_cons, filterMap_flatMap]
  cases e.ref? <;> rfl

theorem head?_allColumns (e : Expr) :
    e.allColumns.head? = e.ref?.or (e.children.findSome? fun p => p.allColumns.head?) := by
  rw [allColumns_eq, head?_append, Option.head?_toList, head?_flatMap]

/-! ## The trunk -/

mutual

/-- **The trunk of an expression**: its nodes but for the branches of conditionals. -/
def trunk : Expr → List Expr
  | .literal value => [.literal value]
  | .column ref => [.column ref]
  | .table name => [.table name]
  | .call name args => .call name args :: trunkAll args
  | .binary l op r => .binary l op r :: (l.trunk ++ r.trunk)
  | .unary op e => .unary op e :: e.trunk
  | .variable name value => .variable name value :: trunkOpt value
  | .cond c a e => .cond c a e :: c.trunk
  | .measure name body format description => .measure name body format description :: body.trunk

/-- The trunks of a list of expressions. -/
def trunkAll : List Expr → List Expr
  | [] => []
  | e :: es => e.trunk ++ trunkAll es

/-- The trunk of an optional part. -/
def trunkOpt : Option Expr → List Expr
  | none => []
  | some e => e.trunk

end

theorem trunkAll_eq_flatMap (es : List Expr) : trunkAll es = es.flatMap trunk := by
  induction es with
  | nil => rfl
  | cons e es ih => rw [trunkAll, ih, flatMap_cons]

theorem trunk_eq (e : Expr) : e.trunk = e :: e.searched.flatMap trunk := by
  cases e with
  | call name args => rw [trunk, trunkAll_eq_flatMap]; rfl
  | «variable» name value => cases value <;> simp [trunk, trunkOpt, searched, children]
  | _ => simp [trunk, searched, children]

/-- The trunk is part of the whole, in the same order. -/
theorem trunk_sublist_nodes (e : Expr) : e.trunk <+ e.nodes := by
  induction e using children_induction with
  | step e ih =>
    rw [trunk_eq, nodes_eq]
    refine Sublist.cons_cons e ?_
    calc e.searched.flatMap trunk
      _ <+ e.children.flatMap trunk := (searched_sublist e).flatMap trunk
      _ <+ e.children.flatMap nodes := Sublist.flatMap_right e.children ih

/-- **What is found is the first column of the trunk.** -/
theorem firstColumn?_eq_head?_trunk (e : Expr) :
    e.firstColumn? = (e.trunk.filterMap ref?).head? := by
  induction e using children_induction with
  | step e ih =>
    have hsearched : e.searched.findSome? firstColumn? =
        ((e.searched.flatMap trunk).filterMap ref?).head? := by
      rw [filterMap_flatMap, head?_flatMap]
      exact findSome?_congr fun p hp => ih p ((searched_sublist e).subset hp)
    rw [firstColumn?_eq, trunk_eq, hsearched, filterMap_cons]
    cases e.ref? <;> rfl

/-- The first column is one of the nodes. -/
theorem column_mem_nodes {ref : ColumnRef} {e : Expr} (h : e.firstColumn? = some ref) :
    .column ref ∈ e.nodes := by
  rw [firstColumn?_eq_head?_trunk] at h
  obtain ⟨node, hnode, href⟩ := mem_filterMap.mp (mem_of_head? h)
  obtain rfl := ref?_eq_some_iff.mp href
  exact (trunk_sublist_nodes e).subset hnode

/-! ## Conditionals -/

/-- **A conditional with columns has one in its condition.** -/
def ShowsColumn : Expr → Prop
  | .cond c a e => c.allColumns = [] → (cond c a e).allColumns = []
  | _ => True

/-- Where every conditional with columns has one in its condition, what is found is the first of all
columns. -/
theorem firstColumn?_of_showsColumn {e : Expr} (h : ∀ p ∈ e.nodes, p.ShowsColumn) :
    e.firstColumn? = e.allColumns.head? := by
  induction e using children_induction with
  | step e ih =>
    have hchild : ∀ p ∈ e.children, p.firstColumn? = p.allColumns.head? := fun p hp =>
      ih p hp fun x hx => h x (nodes_subset_of_mem_children hp hx)
    rw [firstColumn?_eq, head?_allColumns]
    cases e with
    | cond c a e =>
      -- The branches are not searched: either the condition has the first column, or there is none.
      have hc : c.firstColumn? = c.allColumns.head? := hchild c mem_cons_self
      cases hcolumns : c.allColumns with
      | nil =>
        have hnone : (cond c a e).allColumns = [] := h (cond c a e) (mem_nodes _) hcolumns
        rw [← head?_allColumns, hnone]
        simp [searched, ref?, hc, hcolumns]
      | cons ref rest => simp [searched, children, ref?, hc, hcolumns]
    | _ => exact congrArg _ (findSome?_congr hchild)

/-- **When the first column is found.**  What is found is the first column of the trunk.  It is the
first of all columns, in an expression and in each of its parts, exactly when every conditional with
columns has one in its condition. -/
theorem firstColumn?_eq_head?_allColumns_iff (e : Expr) :
    e.firstColumn? = (e.trunk.filterMap ref?).head? ∧ e.trunk <+ e.nodes ∧
      ((∀ p ∈ e.nodes, p.firstColumn? = p.allColumns.head?) ↔ ∀ p ∈ e.nodes, p.ShowsColumn) := by
  refine ⟨firstColumn?_eq_head?_trunk e, trunk_sublist_nodes e, ?_, ?_⟩
  · intro found p hp
    cases p with
    | cond c a r =>
      intro hc
      have hcondition : c ∈ (cond c a r).nodes :=
        nodes_subset_of_mem_children mem_cons_self (mem_nodes c)
      have hnone : c.firstColumn? = none := by
        rw [found c (nodes_subset hp hcondition), hc, head?_nil]
      have hfirst : (cond c a r).firstColumn? = none := by rw [firstColumn?, hnone]
      exact head?_eq_none_iff.mp ((found _ hp).symm.trans hfirst)
    | _ => trivial
  · intro shown p hp
    exact firstColumn?_of_showsColumn fun x hx => shown x (nodes_subset hp hx)

/-- A conditional on a constant keeps its columns in its branches. -/
example :
    let e := Expr.cond (.literal (.boolean true)) (.column ⟨some "Product", "UnitPrice"⟩) none
    e.firstColumn? = none ∧ e.allColumns.head? = some ⟨some "Product", "UnitPrice"⟩ := by
  decide

end MeasureSql.Dax.Expr
