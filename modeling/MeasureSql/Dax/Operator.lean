/-!
# Operators

The operators of the expression language with their spelling and strength.

## Main definitions

* `BinaryOp`, `UnaryOp` — the operators.
* `BinaryOp.strength` — how tightly a binary operator binds; the power operator binds tightest.
-/

namespace MeasureSql.Dax

/-- Operators between two operands. -/
inductive BinaryOp where
  | add
  | subtract
  | multiply
  | divide
  | power
  | equals
  | notEquals
  | lessThan
  | lessEqual
  | greaterThan
  | greaterEqual
  | and
  | or
  | concat
  deriving DecidableEq, Repr, Inhabited

namespace BinaryOp

/-- All operators in order, each with its name and its spelling. -/
def table : List (BinaryOp × String × String) :=
  [(.add, "Add", "+"), (.subtract, "Subtract", "-"), (.multiply, "Multiply", "*"),
    (.divide, "Divide", "/"), (.power, "Power", "^"), (.equals, "Equals", "="),
    (.notEquals, "NotEquals", "<>"), (.lessThan, "LessThan", "<"), (.lessEqual, "LessEqual", "<="),
    (.greaterThan, "GreaterThan", ">"), (.greaterEqual, "GreaterEqual", ">="), (.and, "And", "&&"),
    (.or, "Or", "||"), (.concat, "Concat", "&")]

/-- The spelling of an operator. -/
def symbol : BinaryOp → String
  | .add => "+"
  | .subtract => "-"
  | .multiply => "*"
  | .divide => "/"
  | .power => "^"
  | .equals => "="
  | .notEquals => "<>"
  | .lessThan => "<"
  | .lessEqual => "<="
  | .greaterThan => ">"
  | .greaterEqual => ">="
  | .and => "&&"
  | .or => "||"
  | .concat => "&"

/-- The operator with that spelling. -/
def ofSymbol? (s : String) : Option BinaryOp :=
  (table.find? (·.2.2 == s)).map (·.1)

/-- Does the operator compare its operands? -/
def isComparison : BinaryOp → Bool
  | .equals | .notEquals | .lessThan | .lessEqual | .greaterThan | .greaterEqual => true
  | _ => false

/-- How tightly an operator binds, from one for the loosest. -/
def strength : BinaryOp → Nat
  | .or => 1
  | .and => 2
  | .equals | .notEquals => 3
  | .lessThan | .lessEqual | .greaterThan | .greaterEqual => 4
  | .add | .subtract | .concat => 5
  | .multiply | .divide => 6
  | .power => 7

end BinaryOp

/-- Operators in front of one operand. -/
inductive UnaryOp where
  | negate
  | not
  deriving DecidableEq, Repr, Inhabited

namespace UnaryOp

/-- All operators in order. -/
def all : List UnaryOp := [.negate, .not]

/-- The spelling of an operator. -/
def symbol : UnaryOp → String
  | .negate => "-"
  | .not => "NOT"

/-- The operator with that spelling. -/
def ofSymbol? (s : String) : Option UnaryOp :=
  all.find? (·.symbol == s)

end UnaryOp

end MeasureSql.Dax
