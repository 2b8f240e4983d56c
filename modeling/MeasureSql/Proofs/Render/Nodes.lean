import MeasureSql.Proofs.Dax.Children

/-!
# Nodes

The nodes of an expression are all that it is made of: the expression and the nodes of its children.

## Main definitions

* `Expr.nodes` — an expression with all that it is made of.

## Main results

* `Expr.nodes_eq` — the nodes by the children.
* `Expr.nodes_subset` — the nodes of a node are nodes of the whole.
* `Expr.forall_mem_nodes` — what is handed down to children is handed down to all nodes.
-/

namespace MeasureSql.Dax.Expr

open List

mutual

/-- An expression with all that it is made of, down to the values of its variables. -/
def nodes : Expr → List Expr
  | .literal value => [.literal value]
  | .column ref => [.column ref]
  | .table name => [.table name]
  | .call name args => .call name args :: nodesAll args
  | .binary l op r => .binary l op r :: (l.nodes ++ r.nodes)
  | .unary op e => .unary op e :: e.nodes
  | .variable name value => .variable name value :: nodesOpt value
  | .cond c a e => .cond c a e :: (c.nodes ++ a.nodes ++ nodesOpt e)
  | .measure name body format description => .measure name body format description :: body.nodes

/-- The nodes of a list of expressions. -/
def nodesAll : List Expr → List Expr
  | [] => []
  | e :: es => e.nodes ++ nodesAll es

/-- The nodes of an optional part. -/
def nodesOpt : Option Expr → List Expr
  | none => []
  | some e => e.nodes

end

theorem mem_nodes (e : Expr) : e ∈ e.nodes := by
  cases e <;> simp [nodes]

theorem nodesAll_eq_flatMap (es : List Expr) : nodesAll es = es.flatMap nodes := by
  induction es with
  | nil => rfl
  | cons e es ih => rw [nodesAll, ih, flatMap_cons]

theorem nodes_subset_nodesAll {e : Expr} {es : List Expr} (h : e ∈ es) : e.nodes ⊆ nodesAll es := by
  rw [nodesAll_eq_flatMap]
  exact fun node hnode => mem_flatMap.mpr ⟨e, h, hnode⟩

/-- **The nodes of an expression** are itself and the nodes of its children. -/
theorem nodes_eq (e : Expr) : e.nodes = e :: e.children.flatMap nodes := by
  cases e with
  | call name args => rw [nodes, nodesAll_eq_flatMap, children]
  | «variable» name value => cases value <;> simp [nodes, nodesOpt, children]
  | cond c a e => cases e <;> simp [nodes, nodesOpt, children]
  | _ => simp [nodes, children]

/-- The nodes of a child are nodes. -/
theorem nodes_subset_of_mem_children {p e : Expr} (h : p ∈ e.children) : p.nodes ⊆ e.nodes := by
  rw [nodes_eq e]
  exact fun node hnode => mem_cons_of_mem _ (mem_flatMap.mpr ⟨p, h, hnode⟩)

/-- **What every expression hands down to its children** it hands down to all its nodes. -/
theorem forall_mem_nodes {P : Expr → Prop} (down : ∀ e, P e → ∀ p ∈ e.children, P p) {e : Expr}
    (h : P e) : ∀ node ∈ e.nodes, P node := by
  induction e using children_induction with
  | step e ih =>
    intro node hnode
    rw [nodes_eq, mem_cons, mem_flatMap] at hnode
    rcases hnode with rfl | ⟨p, hp, hnode⟩
    · exact h
    · exact ih p hp (down e h p hp) node hnode

/-- The nodes of a node are nodes of the whole. -/
theorem nodes_subset {p e : Expr} (h : p ∈ e.nodes) : p.nodes ⊆ e.nodes := by
  have down : ∀ x : Expr, x.nodes ⊆ e.nodes → ∀ p ∈ x.children, p.nodes ⊆ e.nodes :=
    fun x hx p hp => Subset.trans (nodes_subset_of_mem_children hp) hx
  exact forall_mem_nodes down (Subset.refl _) p h

end MeasureSql.Dax.Expr
