import MeasureSql.Text.Blank
import MeasureSql.Text.CaseMap

/-!
# Columns

## Main definitions

* `ColumnType` — the type of a column, and the type that a warehouse's name for it denotes.
* `Column` — a column in SQL, perhaps known by another name in expressions.
-/

namespace MeasureSql

/-- The type of a column. -/
inductive ColumnType where
  | string
  | integer
  | float
  | decimal
  | date
  | datetime
  | boolean
  | unknown
  deriving DecidableEq, Repr, Inhabited

namespace ColumnType

/-- All types. -/
def all : List ColumnType :=
  [.string, .integer, .float, .decimal, .date, .datetime, .boolean, .unknown]

/-- The name of a type. -/
def name : ColumnType → String
  | .string => "string"
  | .integer => "integer"
  | .float => "float"
  | .decimal => "decimal"
  | .date => "date"
  | .datetime => "datetime"
  | .boolean => "boolean"
  | .unknown => "unknown"

/-- The type of that name. -/
def ofName? (s : String) : Option ColumnType :=
  all.find? (·.name == s)

/-- The names that warehouses give to each type, in capitals and without arguments. -/
def warehouseNames : List (ColumnType × List String) :=
  [(.string, ["VARCHAR", "STRING", "TEXT", "CHAR", "CHARACTER", "NVARCHAR", "NCHAR"]),
    (.integer, ["INTEGER", "INT", "BIGINT", "SMALLINT", "TINYINT", "BYTEINT", "INT64"]),
    (.float, ["FLOAT", "FLOAT4", "FLOAT8", "DOUBLE", "DOUBLE PRECISION", "REAL", "FLOAT64"]),
    (.decimal, ["NUMBER", "DECIMAL", "NUMERIC", "BIGNUMERIC"]),
    (.date, ["DATE"]),
    (.datetime, ["DATETIME", "TIMESTAMP", "TIMESTAMP_NTZ", "TIMESTAMP_LTZ", "TIMESTAMP_TZ",
      "TIMESTAMPTZ", "DATETIME2"]),
    (.boolean, ["BOOLEAN", "BOOL", "BIT"])]

/-- The type that a warehouse's type name denotes; arguments in parentheses are ignored. -/
def ofWarehouse (typeName : String) : ColumnType :=
  let upper := Text.asciiUpper (Text.trim typeName)
  let base := Text.trim (String.ofList (upper.toList.takeWhile (· != '(')))
  ((warehouseNames.find? (·.2.contains base)).map (·.1)).getD .unknown

/-- Does a column of the type hold points in time? -/
def isTemporal : ColumnType → Bool
  | .date | .datetime => true
  | _ => false

end ColumnType

/-- A column: its name in SQL, its name in expressions when that is another one, and its type. -/
structure Column where
  name : String
  daxName : Option String := none
  dataType : ColumnType := .unknown
  isKey : Bool := false
  isNullable : Bool := true
  description : Option String := none
  deriving DecidableEq, Repr, Inhabited

namespace Column

/-- The name in expressions. -/
def effectiveName (c : Column) : String :=
  c.daxName.getD c.name

/-- Is it the column's name in SQL or in expressions, up to the case of the letters A to Z? -/
def isCalled (c : Column) (name : String) : Bool :=
  Text.sameIgnoringCase c.name name || c.daxName.any (Text.sameIgnoringCase · name)

/-- The same column as a key, which cannot be null. -/
def key (c : Column) : Column :=
  { c with isKey := true, isNullable := false }

/-- Is the key, in capitals, the column's name in SQL or in expressions? -/
def hasKey (c : Column) (key : String) : Bool :=
  Text.upper c.name == key || c.daxName.any (Text.upper · == key)

end Column

end MeasureSql
