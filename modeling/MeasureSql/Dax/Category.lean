import MeasureSql.Text.CaseMap

/-!
# Function categories

What a function of the expression language is about, by its name.

## Main definitions

* `FunctionCategory`, `FunctionCategory.ofName`.
-/

namespace MeasureSql.Dax

/-- What a function is about. -/
inductive FunctionCategory where
  | aggregation
  | filter
  | timeIntelligence
  | logical
  | text
  | math
  | table
  | unknown
  deriving DecidableEq, Repr, Inhabited

namespace FunctionCategory

/-- The functions of each category, in capitals. -/
def members : List (FunctionCategory × List String) :=
  [(.aggregation,
      ["SUM", "AVERAGE", "COUNT", "COUNTROWS", "MIN", "MAX", "SUMX", "AVERAGEX", "COUNTX", "MINX",
        "MAXX", "DISTINCTCOUNT", "DISTINCTCOUNTNOBLANK"]),
    (.filter,
      ["FILTER", "ALL", "ALLEXCEPT", "ALLSELECTED", "VALUES", "CALCULATE", "CALCULATETABLE",
        "KEEPFILTERS", "REMOVEFILTERS"]),
    (.timeIntelligence,
      ["DATEADD", "SAMEPERIODLASTYEAR", "PREVIOUSYEAR", "PREVIOUSMONTH", "DATESYTD", "DATESMTD",
        "DATESQTD", "TOTALYTD", "TOTALMTD", "PARALLELPERIOD", "DATESBETWEEN", "DATESINPERIOD"]),
    (.logical,
      ["IF", "SWITCH", "AND", "OR", "NOT", "TRUE", "FALSE", "IFERROR", "ISBLANK", "ISERROR",
        "COALESCE"]),
    (.text,
      ["CONCATENATE", "FORMAT", "LEFT", "RIGHT", "MID", "LEN", "UPPER", "LOWER", "TRIM",
        "SUBSTITUTE", "SEARCH", "FIND"]),
    (.math,
      ["DIVIDE", "ABS", "ROUND", "ROUNDUP", "ROUNDDOWN", "INT", "MOD", "POWER", "SQRT", "LOG",
        "EXP", "SIGN"]),
    (.table,
      ["SUMMARIZE", "ADDCOLUMNS", "SELECTCOLUMNS", "CROSSJOIN", "UNION", "INTERSECT", "EXCEPT",
        "NATURALINNERJOIN"])]

/-- The category of a function name in any case. -/
def ofName (name : String) : FunctionCategory :=
  ((members.find? (·.2.contains (Text.asciiUpper name))).map (·.1)).getD .unknown

/-- The name of a category. -/
def name : FunctionCategory → String
  | .aggregation => "aggregation"
  | .filter => "filter"
  | .timeIntelligence => "time_intelligence"
  | .logical => "logical"
  | .text => "text"
  | .math => "math"
  | .table => "table"
  | .unknown => "unknown"

end FunctionCategory

end MeasureSql.Dax
