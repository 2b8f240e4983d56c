import MeasureSql.Dax.Token
import MeasureSql.Text.CaseMap

/-!
# Keywords

The words of the expression language, matched without regard to the case of the letters A to Z.

## Main definitions

* `keywords` — the words, in capitals.
* `isKeyword` — is a word one of them?
* `TokenKind.ofWord` — the kind of token that a bare word makes.
-/

namespace MeasureSql.Dax

/-- The known words, in capitals. -/
def keywords : List String :=
  [ -- aggregation
    "SUM", "SUMX", "AVERAGE", "AVERAGEX", "COUNT", "COUNTX", "COUNTA", "COUNTAX",
    "COUNTROWS", "COUNTBLANK", "MIN", "MINX", "MAX", "MAXX", "DISTINCTCOUNT",
    "DISTINCTCOUNTNOBLANK", "PRODUCT", "PRODUCTX",
    -- filters
    "CALCULATE", "CALCULATETABLE", "FILTER", "ALL", "ALLEXCEPT", "ALLSELECTED",
    "ALLNOBLANKROW", "VALUES", "DISTINCT", "KEEPFILTERS", "REMOVEFILTERS", "EARLIER",
    "EARLIEST", "HASONEVALUE", "HASONEFILTER", "ISFILTERED", "ISCROSSFILTERED",
    "SELECTEDVALUE",
    -- time intelligence
    "DATEADD", "DATEDIFF", "SAMEPERIODLASTYEAR", "PREVIOUSYEAR", "PREVIOUSQUARTER",
    "PREVIOUSMONTH", "PREVIOUSDAY", "NEXTYEAR", "NEXTQUARTER", "NEXTMONTH", "NEXTDAY",
    "PARALLELPERIOD", "STARTOFYEAR", "STARTOFQUARTER", "STARTOFMONTH", "ENDOFYEAR",
    "ENDOFQUARTER", "ENDOFMONTH", "DATESYTD", "DATESMTD", "DATESQTD", "TOTALYTD",
    "TOTALMTD", "TOTALQTD", "DATESBETWEEN", "DATESINPERIOD", "FIRSTDATE", "LASTDATE",
    "OPENINGBALANCEYEAR", "OPENINGBALANCEQUARTER", "OPENINGBALANCEMONTH",
    "CLOSINGBALANCEYEAR", "CLOSINGBALANCEQUARTER", "CLOSINGBALANCEMONTH",
    -- logic
    "IF", "IFERROR", "IFNA", "SWITCH", "AND", "OR", "NOT", "TRUE", "FALSE", "ISBLANK",
    "ISERROR", "ISLOGICAL", "ISNUMBER", "ISTEXT", "ISNONTEXT", "COALESCE",
    -- text
    "CONCATENATE", "CONCATENATEX", "FORMAT", "LEFT", "RIGHT", "MID", "LEN", "UPPER",
    "LOWER", "TRIM", "SUBSTITUTE", "REPLACE", "SEARCH", "FIND", "EXACT", "REPT",
    "UNICODE", "UNICHAR", "VALUE",
    -- mathematics
    "DIVIDE", "ABS", "ROUND", "ROUNDUP", "ROUNDDOWN", "MROUND", "INT", "MOD", "POWER",
    "SQRT", "LOG", "LOG10", "LN", "EXP", "SIGN", "CEILING", "FLOOR", "RAND",
    "RANDBETWEEN", "PI", "EVEN", "ODD", "FACT", "GCD", "LCM", "QUOTIENT", "TRUNC",
    -- tables
    "SUMMARIZE", "SUMMARIZECOLUMNS", "ADDCOLUMNS", "SELECTCOLUMNS", "TOPN", "SAMPLE",
    "GENERATE", "GENERATEALL", "CROSSJOIN", "NATURALINNERJOIN", "NATURALLEFTOUTERJOIN",
    "UNION", "INTERSECT", "EXCEPT", "DATATABLE", "ROW", "GENERATESERIES", "CALENDAR",
    "CALENDARAUTO", "TREATAS",
    -- relationships
    "RELATED", "RELATEDTABLE", "USERELATIONSHIP", "CROSSFILTER",
    -- statements
    "BLANK", "ERROR", "VAR", "RETURN", "EVALUATE", "DEFINE", "MEASURE", "COLUMN",
    "TABLE", "ORDER", "BY", "ASC", "DESC", "START", "AT"]

/-- Is the word a keyword, in any case? -/
def isKeyword (word : String) : Bool :=
  keywords.contains (Text.asciiUpper word)

/-- The kind of token that a bare word makes. -/
def TokenKind.ofWord (word : String) : TokenKind :=
  match Text.asciiUpper word with
  | "TRUE" => .trueWord
  | "FALSE" => .falseWord
  | "BLANK" => .blankWord
  | "VAR" => .varWord
  | "RETURN" => .returnWord
  | "AND" => .and
  | "OR" => .or
  | "NOT" => .not
  | _ => if isKeyword word then .keyword else .identifier

end MeasureSql.Dax
