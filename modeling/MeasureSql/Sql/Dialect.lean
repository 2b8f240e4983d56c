import MeasureSql.Sql.Quoting
import MeasureSql.Text.CaseMap

/-!
# SQL dialects

What differs between the SQL dialects that queries are written for: quoting, truth values,
concatenation, names of functions, and the way to limit rows.

## Main definitions

* `Dialect` — the dialects, and how their names are read.
* `Dialect.quoteIdentifier`, `Dialect.quoteString`, `Dialect.boolean` — names and literals.
* `Dialect.renamed?` — the name of a function in a dialect, when it is another one.
* `Dialect.limited` — a query that returns no more than some rows.
-/

namespace MeasureSql

/-- The SQL dialects. -/
inductive Dialect where
  | snowflake
  | postgres
  | duckdb
  | bigquery
  | tsql
  deriving DecidableEq, Repr, Inhabited

namespace Dialect

/-- All dialects. -/
def all : List Dialect := [.snowflake, .postgres, .duckdb, .bigquery, .tsql]

/-- The name of a dialect. -/
def name : Dialect → String
  | .snowflake => "snowflake"
  | .postgres => "postgres"
  | .duckdb => "duckdb"
  | .bigquery => "bigquery"
  | .tsql => "tsql"

/-- The name of a dialect as a title. -/
def title : Dialect → String
  | .snowflake => "Snowflake"
  | .postgres => "Postgres"
  | .duckdb => "DuckDb"
  | .bigquery => "BigQuery"
  | .tsql => "TSql"

/-- Other names that people use, besides `name`. -/
def nicknames : Dialect → List String
  | .snowflake => []
  | .postgres => ["postgresql"]
  | .duckdb => ["duck"]
  | .bigquery => ["bq"]
  | .tsql => ["mssql", "sqlserver"]

/-- A dialect by one of its names in any case; an unknown name is returned in small letters. -/
def parse (s : String) : Except String Dialect :=
  let word := Text.lower s
  match all.find? fun d => d.name == word || d.nicknames.contains word with
  | some d => .ok d
  | none => .error word

/-- What is said of an unknown name. -/
def unknownMessage (word : String) : String :=
  "Unsupported SQL dialect: " ++ word

/-- A dialect by a name in a document, where names are in small letters and only one dialect has
other names. -/
def ofDocument? (s : String) : Option Dialect :=
  all.find? fun d => d.name == s || (d == .tsql && d.nicknames.contains s)

/-- An identifier in quotes. -/
def quoteIdentifier : Dialect → String → String
  | .snowflake | .postgres | .duckdb => Sql.quoteDouble
  | .bigquery => Sql.quoteBacktick
  | .tsql => Sql.quoteBracket

/-- A string literal. -/
def quoteString : Dialect → String → String
  | .tsql => fun s => "N" ++ Sql.quoteSingle s
  | _ => Sql.quoteSingle

/-- A truth value. -/
def boolean : Dialect → Bool → String
  | .tsql, true => "1"
  | .tsql, false => "0"
  | _, true => "TRUE"
  | _, false => "FALSE"

/-- No value. -/
def null : String := "NULL"

/-- The operator that joins two texts. -/
def concatOperator : Dialect → String
  | .tsql => "+"
  | _ => "||"

/-- Can the operator be used, or is a function needed? -/
def hasConcatOperator : Dialect → Bool
  | .bigquery => false
  | _ => true

/-- Are the catalog's templates at home in this dialect? -/
def runsTemplates : Dialect → Bool
  | .snowflake => true
  | _ => false

/-- The functions that go by another name in a dialect. -/
def renamings : Dialect → List (String × String)
  | .snowflake => [("IFNULL", "NVL"), ("ISNULL", "NVL")]
  | .postgres => [("TO_VARCHAR", "TO_CHAR"), ("NVL", "COALESCE"), ("IFNULL", "COALESCE"),
      ("ISNULL", "COALESCE")]
  | .duckdb => [("TO_VARCHAR", "STRFTIME"), ("TO_CHAR", "STRFTIME"), ("NVL", "COALESCE"),
      ("IFNULL", "COALESCE"), ("ISNULL", "COALESCE")]
  | .bigquery => [("TO_VARCHAR", "FORMAT"), ("TO_CHAR", "FORMAT"), ("NVL", "IFNULL"),
      ("ISNULL", "IFNULL"), ("LENGTH", "CHAR_LENGTH"), ("SUBSTR", "SUBSTRING")]
  | .tsql => [("LENGTH", "LEN"), ("SUBSTR", "SUBSTRING"), ("CEIL", "CEILING"), ("LN", "LOG"),
      ("TO_VARCHAR", "FORMAT"), ("TO_CHAR", "FORMAT"), ("NVL", "ISNULL"), ("IFNULL", "ISNULL"),
      ("CURRENT_DATE", "GETDATE")]

/-- The name of a function in a dialect, when it is another one. -/
def renamed? (d : Dialect) (function : String) : Option String :=
  d.renamings.lookup (Text.upper function)

/-- A query that returns no more than `limit` rows of another one. -/
def limited (d : Dialect) (sql : String) (limit : Nat) : String :=
  match d with
  | .tsql => "SELECT TOP " ++ toString limit ++ " * FROM (" ++ sql ++ ") t"
  | _ => "SELECT * FROM (" ++ sql ++ ") t LIMIT " ++ toString limit

end Dialect

end MeasureSql
