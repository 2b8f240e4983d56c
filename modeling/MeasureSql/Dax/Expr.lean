import MeasureSql.Dax.Category
import MeasureSql.Dax.Operator
import MeasureSql.Number.Double

/-!
# Expressions

The syntax trees of the expression language.

## Main definitions

* `Literal`, `ColumnRef`, `Expr` — the trees.
* `Expr.kind` — which of the nine shapes a tree has.
* `Expr.height` — how deeply it is nested.
* `Expr.firstColumn?` — the column that decides which table a condition belongs to.
-/

namespace MeasureSql.Dax

/-- A literal value. -/
inductive Literal where
  | integer (value : Int)
  | float (value : Double)
  | string (value : String)
  | boolean (value : Bool)
  /-- No value; `NULL` in SQL. -/
  | blank
  deriving DecidableEq, Repr, Inhabited

/-- A column with the table it belongs to, or a column in brackets alone. -/
structure ColumnRef where
  table : Option String
  column : String
  deriving DecidableEq, Repr, Inhabited

/-- An expression. -/
inductive Expr where
  | literal (value : Literal)
  | column (ref : ColumnRef)
  | table (name : String)
  | call (name : String) (args : List Expr)
  | binary (left : Expr) (op : BinaryOp) (right : Expr)
  | unary (op : UnaryOp) (operand : Expr)
  /-- A variable; a reference that was resolved carries the expression it stands for. -/
  | variable (name : String) (value : Option Expr)
  | cond (condition thenBranch : Expr) (elseBranch : Option Expr)
  | measure (name : String) (body : Expr) (format description : Option String)
  deriving Inhabited, Repr

/-- The shapes of expressions. -/
inductive NodeKind where
  | literal
  | column
  | table
  | function
  | binary
  | unary
  | variable
  | cond
  | measure
  deriving DecidableEq, Repr, Inhabited

/-- The name of a shape. -/
def NodeKind.name : NodeKind → String
  | .literal => "literal"
  | .column => "column"
  | .table => "table"
  | .function => "function"
  | .binary => "binary_op"
  | .unary => "unary_op"
  | .variable => "variable"
  | .cond => "if_expression"
  | .measure => "measure"

/-- What is said of a shape that a traversal does not handle. -/
def NodeKind.unhandled (k : NodeKind) : String :=
  "no visitor handler implemented for " ++ k.name ++ " nodes"

namespace Expr

/-- The literal without a value. -/
def blank : Expr := .literal .blank

/-- The shape of an expression. -/
def kind : Expr → NodeKind
  | .literal _ => .literal
  | .column _ => .column
  | .table _ => .table
  | .call _ _ => .function
  | .binary _ _ _ => .binary
  | .unary _ _ => .unary
  | .variable _ _ => .variable
  | .cond _ _ _ => .cond
  | .measure _ _ _ _ => .measure

/-- Is it the literal without a value? -/
def isBlank : Expr → Bool
  | .literal .blank => true
  | _ => false

/-- Is it a binary operation? -/
def isBinary : Expr → Bool
  | .binary _ _ _ => true
  | _ => false

mutual

/-- The number of levels of an expression; a leaf has one. -/
def height : Expr → Nat
  | .literal _ => 1
  | .column _ => 1
  | .table _ => 1
  | .call _ args => heightAll args + 1
  | .binary l _ r => max l.height r.height + 1
  | .unary _ e => e.height + 1
  | .variable _ value => heightOpt value + 1
  | .cond c t e => max (max c.height t.height) (heightOpt e) + 1
  | .measure _ body _ _ => body.height + 1

/-- The greatest height in a list. -/
def heightAll : List Expr → Nat
  | [] => 0
  | e :: es => max e.height (heightAll es)

/-- The height of an optional part. -/
def heightOpt : Option Expr → Nat
  | none => 0
  | some e => e.height

end

mutual

/-- The first column of an expression, from left to right.  Of a conditional only the condition is
looked at. -/
def firstColumn? : Expr → Option ColumnRef
  | .literal _ => none
  | .column ref => some ref
  | .table _ => none
  | .call _ args => firstColumnOf? args
  | .binary l _ r => (firstColumn? l).or (firstColumn? r)
  | .unary _ e => firstColumn? e
  | .variable _ value => firstColumnOpt? value
  | .cond c _ _ => firstColumn? c
  | .measure _ body _ _ => firstColumn? body

/-- The first column in a list of expressions. -/
def firstColumnOf? : List Expr → Option ColumnRef
  | [] => none
  | e :: es => (firstColumn? e).or (firstColumnOf? es)

/-- The first column of an optional part. -/
def firstColumnOpt? : Option Expr → Option ColumnRef
  | none => none
  | some e => firstColumn? e

end

/-- Counts the literals of an arithmetic expression from left to right.  The count stops at the
first shape that is neither a literal nor an operation, which is returned with it. -/
def countLiterals : Expr → Nat × Option NodeKind
  | .literal _ => (1, none)
  | .binary l _ r => match countLiterals l with
    | (n, some k) => (n, some k)
    | (n, none) => match countLiterals r with
      | (m, stop) => (n + m, stop)
  | .unary _ e => countLiterals e
  | other => (0, some other.kind)

end Expr

end MeasureSql.Dax
