import MeasureSql.Render.Call

/-!
# The SQL of an expression

Expressions are rendered bottom up.  One level of an expression is rendered by `renderWith`, which
takes the rendering of the parts below as a parameter; `renderExpr` closes the loop, with the height
of the expression as its bound.

## Main definitions

* `renderWith` — one level.
* `renderExpr` — a whole expression.
-/

namespace MeasureSql

open Dax

namespace Rendering

/-- A literal in SQL. -/
def renderLiteral (d : Dialect) : Literal → String
  | .integer n => toString n
  | .float x => x.write .sql
  | .string s => d.quoteString s
  | .boolean b => d.boolean b
  | .blank => Dialect.null

/-- The words for intervals that may stand in the place of a table. -/
def intervals : List String := ["DAY", "WEEK", "MONTH", "QUARTER", "YEAR"]

/-- The words for sort orders that may stand in the place of a table. -/
def sortOrders : List String := ["ASC", "DESC"]

/-- A bare name: a table, unless it is no table of the schema and a word of its own. -/
def renderTable (t : Target) (name : String) : Rendering String := do
  let upper := Text.upper name
  let isTable := (t.schema?.bind (·.table? name)).isSome
  if !isTable && intervals.contains upper then pure (Text.lower upper)
  else if !isTable && sortOrders.contains upper then pure upper
  else
    let table ← resolveTable t name
    pure (t.fromName table)

/-- How an operator is written in SQL. -/
def sqlSymbol : BinaryOp → String
  | .and => "AND"
  | .or => "OR"
  | op => op.symbol

/-- Must an operand of an operator stand in parentheses? -/
def needsParens (child : Expr) (parent : Nat) (onRight : Bool) : Bool :=
  match child with
  | .binary _ op _ => op.strength < parent || (onRight && op.strength == parent)
  | _ => false

/-- A text in parentheses, if need be. -/
def parenthesized (needed : Bool) (sql : String) : String :=
  if needed then "(" ++ sql ++ ")" else sql

variable (t : Target) (sub : Expr → Rendering String)

/-- An operand of an operator of some strength. -/
def renderOperand (child : Expr) (parent : Nat) (onRight : Bool) : Rendering String := do
  let sql ← sub child
  pure (parenthesized (needsParens child parent onRight) sql)

/-- A binary operation.  Comparing with no value asks for `NULL`, and a power is a function. -/
def renderBinary (left : Expr) (op : BinaryOp) (right : Expr) : Rendering String := do
  if (op == .equals || op == .notEquals) && (left.isBlank || right.isBlank) then
    let other := if right.isBlank then left else right
    let sql ← renderOperand sub other BinaryOp.lessThan.strength false
    pure (sql ++ " IS " ++ (if op == .notEquals then "NOT " else "") ++ "NULL")
  else if op == .power then
    let base ← sub left
    let exponent ← sub right
    pure ("POWER(" ++ base ++ ", " ++ exponent ++ ")")
  else
    let l ← renderOperand sub left op.strength false
    let r ← renderOperand sub right op.strength true
    if op == .concat then
      if t.dialect.hasConcatOperator then pure (l ++ " " ++ t.dialect.concatOperator ++ " " ++ r)
      else pure ("CONCAT(" ++ l ++ ", " ++ r ++ ")")
    else pure (l ++ " " ++ sqlSymbol op ++ " " ++ r)

/-- Does the operand of a sign stand in parentheses?  Two minus signs in a row would begin a
comment. -/
def signNeedsParens (operand : Expr) (sql : String) : Bool :=
  (match operand with
    | .binary _ _ _ | .unary _ _ => true
    | _ => false) || sql.toList.head? == some '-'

/-- A sign with its operand. -/
def renderUnary (op : UnaryOp) (operand : Expr) : Rendering String := do
  let sql ← sub operand
  let sql := parenthesized (signNeedsParens operand sql) sql
  match op with
  | .negate => pure ("-" ++ sql)
  | .not => pure ("NOT " ++ sql)

/-- A variable is replaced by what it stands for. -/
def renderVariable (name : String) (value : Option Expr) : Rendering String := do
  match value with
  | some value => do
    let sql ← sub value
    pure (parenthesized value.isBinary sql)
  | none => do
    note .low ("Variable " ++ name ++ " has no bound value")
    pure (guess name)

/-- A conditional. -/
def renderCond (condition thenBranch : Expr) (elseBranch : Option Expr) : Rendering String := do
  let c ← sub condition
  let a ← sub thenBranch
  let rest ← renderAll sub elseBranch.toList
  match t.patterns.get? "IF" with
  | some p => applyPattern t p (c :: a :: rest) none
  | none =>
    pure ("CASE WHEN " ++ c ++ " THEN " ++ a ++ " ELSE " ++ rest.headD "NULL" ++ " END")

/-- One level of an expression, given the rendering of what stands below it. -/
def renderWith : Expr → Rendering String
  | .literal value => pure (renderLiteral t.dialect value)
  | .column ref => do
    let resolved ← resolveColumn t ref
    pure resolved.sql
  | .table name => renderTable t name
  | .call name args => renderCall t sub name args
  | .binary l op r => renderBinary t sub l op r
  | .unary op e => renderUnary sub op e
  | .variable name value => renderVariable sub name value
  | .cond c a e => renderCond t sub c a e
  | .measure name body _ _ => do
    let sql ← sub body
    pure (sql ++ " AS " ++ t.dialect.quoteIdentifier name)

/-- An expression of no more than some levels. -/
def renderLevels : Nat → Expr → Rendering String
  | 0, _ => pure ""
  | levels + 1, e => renderWith t (renderLevels levels) e

/-- An expression in SQL. -/
def renderExpr (e : Expr) : Rendering String :=
  renderLevels t e.height e

end Rendering

end MeasureSql
