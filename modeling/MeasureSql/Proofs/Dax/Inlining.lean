import MeasureSql.Dax.Expr

/-!
# Variables and what they stand for

An expression without its variables has, in the place of each, the expression that the variable
carries.  Everything but a variable keeps its shape, so a question about the shape of an expression
can have another answer without the variables only where a variable stands on top.

## Main definitions

* `Expr.inlined` — an expression without its variables.
* `Expr.shows` — an expression answers a question about its shape as it does without its variables.

## Main results

* `Expr.firstColumn?_inlined` — the first column is the same.
-/

namespace MeasureSql.Dax.Expr

mutual

/-- An expression with every variable replaced by what it stands for. -/
def inlined : Expr → Expr
  | .literal value => .literal value
  | .column ref => .column ref
  | .table name => .table name
  | .call name args => .call name (inlinedAll args)
  | .binary l op r => .binary l.inlined op r.inlined
  | .unary op e => .unary op e.inlined
  | .variable name none => .variable name none
  | .variable _ (some value) => value.inlined
  | .cond c a e => .cond c.inlined a.inlined (inlinedOpt e)
  | .measure name body format description => .measure name body.inlined format description

/-- The same for each expression of a list. -/
def inlinedAll : List Expr → List Expr
  | [] => []
  | e :: es => e.inlined :: inlinedAll es

/-- The same for an optional part. -/
def inlinedOpt : Option Expr → Option Expr
  | none => none
  | some e => some e.inlined

end

theorem inlinedAll_eq_map (es : List Expr) : inlinedAll es = es.map inlined := by
  induction es with
  | nil => rfl
  | cons e es ih => simp [inlinedAll, ih]

theorem inlined_call (name : String) (args : List Expr) :
    (call name args).inlined = .call name (args.map inlined) := by
  rw [inlined, inlinedAll_eq_map]

mutual

/-- **The first column of an expression is that of the expression without its variables.** -/
theorem firstColumn?_inlined : ∀ e : Expr, e.inlined.firstColumn? = e.firstColumn?
  | .literal value => rfl
  | .column ref => rfl
  | .table name => rfl
  | .call name args => by
    simp only [inlined, firstColumn?]
    exact firstColumnOf?_inlinedAll args
  | .binary l op r => by
    simp only [inlined, firstColumn?, firstColumn?_inlined l, firstColumn?_inlined r]
  | .unary op e => by
    simp only [inlined, firstColumn?]
    exact firstColumn?_inlined e
  | .variable name none => rfl
  | .variable name (some value) => by
    simp only [inlined, firstColumn?, firstColumnOpt?]
    exact firstColumn?_inlined value
  | .cond c a e => by
    simp only [inlined, firstColumn?]
    exact firstColumn?_inlined c
  | .measure name body format description => by
    simp only [inlined, firstColumn?]
    exact firstColumn?_inlined body

theorem firstColumnOf?_inlinedAll : ∀ es : List Expr,
    firstColumnOf? (inlinedAll es) = firstColumnOf? es
  | [] => rfl
  | e :: es => by
    simp only [inlinedAll, firstColumnOf?, firstColumn?_inlined e, firstColumnOf?_inlinedAll es]

end

/-! ## Shapes -/

/-- Is it a table? -/
def isTable : Expr → Bool
  | .table _ => true
  | _ => false

/-- Is it a column? -/
def isColumn : Expr → Bool
  | .column _ => true
  | _ => false

/-- Is it a text? -/
def isText : Expr → Bool
  | .literal (.string _) => true
  | _ => false

/-- Does it have an operator on top? -/
def hasOperator : Expr → Bool
  | .binary _ _ _ | .unary _ _ => true
  | _ => false

/-- Does the expression answer a question about its shape as it does without its variables? -/
def shows (question : Expr → Bool) (e : Expr) : Bool :=
  question e.inlined == question e

theorem eq_of_shows {question : Expr → Bool} {e : Expr} (h : e.shows question = true) :
    question e.inlined = question e :=
  eq_of_beq h

theorem exists_of_isTable {e : Expr} (h : e.isTable = true) : ∃ name, e = .table name := by
  unfold isTable at h
  split at h
  · exact ⟨_, rfl⟩
  · cases h

theorem exists_of_isColumn {e : Expr} (h : e.isColumn = true) : ∃ ref, e = .column ref := by
  unfold isColumn at h
  split at h
  · exact ⟨_, rfl⟩
  · cases h

end MeasureSql.Dax.Expr
