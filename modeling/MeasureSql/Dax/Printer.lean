import MeasureSql.Dax.Expr
import MeasureSql.Json.Basic
import MeasureSql.Number.Layout

/-!
# Expression text

An expression written back in its own language, with every binary operation in parentheses, and the
same tree as a JSON value.

## Main definitions

* `Expr.display` — the written form.
* `Expr.toJson` — the tree as a JSON value.
-/

namespace MeasureSql.Dax

/-- A table name, in single quotes when it holds a space. -/
def quoteTable (name : String) : String :=
  if name.toList.contains ' ' then "'" ++ name ++ "'" else name

/-- A column with its table in front, if it has one. -/
def ColumnRef.qualifiedName (ref : ColumnRef) : String :=
  match ref.table with
  | some table => quoteTable table ++ "[" ++ ref.column ++ "]"
  | none => "[" ++ ref.column ++ "]"

namespace Literal

/-- A literal as it is written in expressions. -/
def display : Literal → String
  | .integer n => toString n
  | .float x => x.write .plain
  | .string s => "\"" ++ s ++ "\""
  | .boolean b => if b then "TRUE" else "FALSE"
  | .blank => "BLANK()"

/-- The name of a literal's type. -/
def typeName : Literal → String
  | .integer _ => "integer"
  | .float _ => "float"
  | .string _ => "string"
  | .boolean _ => "boolean"
  | .blank => "blank"

/-- The value of a literal; a float that is no finite number has none. -/
def toJson : Literal → Json
  | .integer n => .int n
  | .float (.finite s m e) => .float (.finite s m e)
  | .float _ => .null
  | .string s => .str s
  | .boolean b => .bool b
  | .blank => .null

end Literal

namespace Expr

mutual

/-- An expression as it is written. -/
def display : Expr → String
  | .literal value => value.display
  | .column ref => ref.qualifiedName
  | .table name => quoteTable name
  | .call name args => name ++ "(" ++ ", ".intercalate (displayAll args) ++ ")"
  | .binary l op r => "(" ++ display l ++ " " ++ op.symbol ++ " " ++ display r ++ ")"
  | .unary .not e => "NOT " ++ display e
  | .unary .negate e => "-" ++ display e
  | .variable name _ => name
  | .cond c t none => "IF(" ++ display c ++ ", " ++ display t ++ ")"
  | .cond c t (some e) => "IF(" ++ display c ++ ", " ++ display t ++ ", " ++ display e ++ ")"
  | .measure name body _ _ => "[" ++ name ++ "] = " ++ display body

/-- Each expression of a list as it is written. -/
def displayAll : List Expr → List String
  | [] => []
  | e :: es => display e :: displayAll es

end

mutual

/-- The tree as a JSON value. -/
def toJson : Expr → Json
  | .literal value => .obj [("type", .str "literal"), ("value", value.toJson),
      ("literal_type", .str value.typeName)]
  | .column ref => .obj [("type", .str "column"), ("table", .optional ref.table),
      ("column", .str ref.column), ("qualified_name", .str ref.qualifiedName)]
  | .table name => .obj [("type", .str "table"), ("name", .str name)]
  | .call name args => .obj [("type", .str "function"), ("name", .str name),
      ("category", .str (FunctionCategory.ofName name).name), ("arguments", .arr (toJsonAll args)),
      ("argument_count", .nat args.length)]
  | .binary l op r => .obj [("type", .str "binary_op"), ("operator", .str op.symbol),
      ("left", toJson l), ("right", toJson r)]
  | .unary op e => .obj [("type", .str "unary_op"), ("operator", .str op.symbol),
      ("operand", toJson e)]
  | .variable name none => .obj [("type", .str "variable"), ("name", .str name)]
  | .variable name (some value) => .obj [("type", .str "variable"), ("name", .str name),
      ("expression", toJson value)]
  | .cond c t none => .obj [("type", .str "if_expression"), ("condition", toJson c),
      ("true_result", toJson t)]
  | .cond c t (some e) => .obj [("type", .str "if_expression"), ("condition", toJson c),
      ("true_result", toJson t), ("false_result", toJson e)]
  | .measure name body format description => .obj [("type", .str "measure"), ("name", .str name),
      ("expression", toJson body), ("format_string", .optional format),
      ("description", .optional description)]

/-- Each tree of a list as a JSON value. -/
def toJsonAll : List Expr → List Json
  | [] => []
  | e :: es => toJson e :: toJsonAll es

end

end Expr

end MeasureSql.Dax
