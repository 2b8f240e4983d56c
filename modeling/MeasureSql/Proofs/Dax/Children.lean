import Mathlib.Data.List.Basic
import MeasureSql.Dax.Expr

/-!
# Children

An expression is made of its children, and all that is defined by going down an expression goes from
an expression to its children.  The search for the first column leaves some of them out: of a
conditional it goes to the condition alone.

## Main definitions

* `Expr.children` — the parts that an expression is directly made of.
* `Expr.searched` — those that are searched for the first column.

## Main results

* `Expr.children_induction` — induction from the children of an expression to the expression.
* `Expr.height_eq`, `Expr.firstColumn?_eq` — heights and first columns by the children.
-/

namespace MeasureSql.Dax.Expr

open List

/-- The parts that an expression is directly made of, from left to right. -/
def children : Expr → List Expr
  | .literal _ | .column _ | .table _ => []
  | .call _ args => args
  | .binary l _ r => [l, r]
  | .unary _ e => [e]
  | .variable _ value => value.toList
  | .cond c a e => c :: a :: e.toList
  | .measure _ body _ _ => [body]

/-! ## Induction -/

theorem height_le_heightAll {e : Expr} {es : List Expr} (h : e ∈ es) :
    e.height ≤ heightAll es := by
  induction es with
  | nil => cases h
  | cons e' es ih =>
    simp only [heightAll]
    rcases mem_cons.mp h with rfl | h
    · omega
    · have := ih h
      omega

theorem height_eq (e : Expr) : e.height = heightAll e.children + 1 := by
  cases e with
  | «variable» name value => cases value <;> simp [height, heightOpt, heightAll, children]
  | cond c a e => cases e <;> simp [height, heightOpt, heightAll, children, Nat.max_assoc]
  | _ => simp [height, heightAll, children]

theorem height_lt_of_mem_children {p e : Expr} (h : p ∈ e.children) : p.height < e.height := by
  rw [height_eq e]
  exact Nat.lt_succ_of_le (height_le_heightAll h)

/-- What an expression has as soon as its children have it, every expression has. -/
@[elab_as_elim]
theorem children_induction {motive : Expr → Prop}
    (step : ∀ e, (∀ p ∈ e.children, motive p) → motive e) (e : Expr) : motive e :=
  step e fun p _ => children_induction step p
termination_by e.height
decreasing_by exact height_lt_of_mem_children ‹p ∈ e.children›

/-! ## The first column -/

/-- The column that an expression is, if it is one. -/
def ref? : Expr → Option ColumnRef
  | .column ref => some ref
  | _ => none

theorem ref?_eq_some_iff {e : Expr} {ref : ColumnRef} : e.ref? = some ref ↔ e = .column ref := by
  cases e <;> simp [ref?]

/-- The children that are searched: of a conditional, the condition. -/
def searched : Expr → List Expr
  | .cond c _ _ => [c]
  | e => e.children

theorem searched_sublist (e : Expr) : e.searched <+ e.children := by
  cases e with
  | cond c a e => exact (nil_sublist _).cons_cons c
  | _ => exact Sublist.refl _

theorem findSome?_congr {f g : Expr → Option ColumnRef} {es : List Expr}
    (h : ∀ e ∈ es, f e = g e) : es.findSome? f = es.findSome? g := by
  rw [← head?_filterMap, ← head?_filterMap, filterMap_congr h]

theorem firstColumnOf?_eq_findSome? (es : List Expr) :
    firstColumnOf? es = es.findSome? firstColumn? := by
  induction es with
  | nil => rfl
  | cons e es ih =>
    rw [firstColumnOf?, ih, findSome?_cons]
    cases e.firstColumn? <;> rfl

/-- **The first column** is that of the first child that is searched and has one. -/
theorem firstColumn?_eq (e : Expr) :
    e.firstColumn? = e.ref?.or (e.searched.findSome? firstColumn?) := by
  cases e with
  | call name args => rw [firstColumn?, firstColumnOf?_eq_findSome?]; rfl
  | binary l op r => cases hl : l.firstColumn? <;> simp [firstColumn?, ref?, searched, children, hl]
  | «variable» name value =>
    cases value <;> simp [firstColumn?, firstColumnOpt?, ref?, searched, children]
  | _ => simp [firstColumn?, ref?, searched, children]

end MeasureSql.Dax.Expr
