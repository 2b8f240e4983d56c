import MeasureSql.Proofs.Dax.Children
import MeasureSql.Text.CaseMap

/-!
# Expressions up to the case of names

An expression with the names of its functions, tables and columns in capitals.  Two expressions
differ only in the case of the letters A to Z in these names exactly if they are the same in
capitals.  The names of variables and measures and all literals stay as they are.

## Main definitions

* `Expr.inCapitals` — an expression with its names in capitals.

## Main results

* `Expr.children_inCapitals`, `Expr.firstColumn?_inCapitals` — the shape is the same.
-/

namespace MeasureSql.Dax

open Text

/-- A column with its names in capitals. -/
def ColumnRef.inCapitals (ref : ColumnRef) : ColumnRef :=
  ⟨ref.table.map asciiUpper, asciiUpper ref.column⟩

namespace Expr

mutual

/-- An expression with the names of its functions, tables and columns in capitals. -/
def inCapitals : Expr → Expr
  | .literal value => .literal value
  | .column ref => .column ref.inCapitals
  | .table name => .table (asciiUpper name)
  | .call name args => .call (asciiUpper name) (inCapitalsAll args)
  | .binary l op r => .binary l.inCapitals op r.inCapitals
  | .unary op e => .unary op e.inCapitals
  | .variable name value => .variable name (inCapitalsOpt value)
  | .cond c a e => .cond c.inCapitals a.inCapitals (inCapitalsOpt e)
  | .measure name body format description => .measure name body.inCapitals format description

/-- The same for each expression of a list. -/
def inCapitalsAll : List Expr → List Expr
  | [] => []
  | e :: es => e.inCapitals :: inCapitalsAll es

/-- The same for an optional part. -/
def inCapitalsOpt : Option Expr → Option Expr
  | none => none
  | some e => some e.inCapitals

end

theorem inCapitalsAll_eq_map (es : List Expr) : inCapitalsAll es = es.map inCapitals := by
  induction es with
  | nil => rfl
  | cons e es ih => simp [inCapitalsAll, ih]

theorem inCapitals_call (name : String) (args : List Expr) :
    (call name args).inCapitals = .call (asciiUpper name) (args.map inCapitals) := by
  rw [inCapitals, inCapitalsAll_eq_map]

theorem inCapitalsOpt_eq_map (e : Option Expr) : inCapitalsOpt e = e.map inCapitals := by
  cases e <;> rfl

/-- **The children** are those in capitals. -/
theorem children_inCapitals (e : Expr) : e.inCapitals.children = e.children.map inCapitals := by
  cases e with
  | call name args => rw [inCapitals_call, children, children]
  | «variable» name value => cases value <;> rfl
  | cond c a e => cases e <;> rfl
  | _ => rfl

theorem searched_inCapitals (e : Expr) : e.inCapitals.searched = e.searched.map inCapitals := by
  have hchildren := children_inCapitals e
  cases e with
  | cond c a e => rfl
  | _ => exact hchildren

/-- **The first column** is the same column. -/
theorem firstColumn?_inCapitals (e : Expr) :
    e.inCapitals.firstColumn? = e.firstColumn?.map ColumnRef.inCapitals := by
  induction e using children_induction with
  | step e ih =>
    have href : e.inCapitals.ref? = e.ref?.map ColumnRef.inCapitals := by cases e <;> rfl
    have hsearched : (e.searched.map inCapitals).findSome? firstColumn? =
        (e.searched.findSome? firstColumn?).map ColumnRef.inCapitals := by
      rw [List.findSome?_map, List.map_findSome?]
      exact findSome?_congr fun p hp => ih p ((searched_sublist e).subset hp)
    rw [firstColumn?_eq, firstColumn?_eq e, href, searched_inCapitals, hsearched, Option.map_or]

theorem isBlank_inCapitals (e : Expr) : e.inCapitals.isBlank = e.isBlank := by
  cases e <;> rfl

theorem isBinary_inCapitals (e : Expr) : e.inCapitals.isBinary = e.isBinary := by
  cases e <;> rfl

end Expr

end MeasureSql.Dax
