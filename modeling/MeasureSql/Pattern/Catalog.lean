import MeasureSql.Pattern.Basic

/-!
# The catalog of patterns

The functions of the expression language that the library knows, each with its SQL.  Predicates on
dates are anchored at the current date, because there is no report to take a date from.

## Main definitions

* `Catalog.builtin` — all patterns in order.
-/

namespace MeasureSql

namespace Catalog

/-- The current date in SQL. -/
def today : String := "CURRENT_DATE()"

/-- From the start of the current period to the current date. -/
def toDate (name part description : String) : Pattern where
  name := name
  category := .timeIntelligence
  template := "{date_column} BETWEEN DATE_TRUNC('" ++ part
    ++ "', {current_date}) AND {current_date}"
  description := description
  params := ["date_column"]
  defaults := [("current_date", today)]
  isDialectSpecific := true
  complexity := .moderate

/-- The whole of the period before the current one. -/
def previousPeriod (name part description : String) : Pattern where
  name := name
  category := .timeIntelligence
  template := "{date_column} BETWEEN DATEADD(" ++ part ++ ", -1, DATE_TRUNC('" ++ part
    ++ "', {current_date})) AND DATEADD(day, -1, DATE_TRUNC('" ++ part ++ "', {current_date}))"
  description := description
  params := ["date_column"]
  defaults := [("current_date", today)]
  isDialectSpecific := true
  complexity := .moderate

/-- A total from the start of the current period to the current date. -/
def totalToDate (name description : String) : Pattern where
  name := name
  category := .timeIntelligence
  template := "(SELECT {expression} FROM {from}{where})"
  description := description
  params := ["expression", "date_column", "filter"]
  defaults := [("filter", "")]
  needsSchema := true
  isDialectSpecific := true
  complexity := .moderate

/-- An aggregate of an expression that is evaluated for each row of a table. -/
def iterator (name aggregate description : String) : Pattern where
  name := name
  category := .aggregation
  template := aggregate ++ "({expression})"
  description := description
  params := ["table", "expression"]
  notes := some "Unqualified columns in the expression resolve against the iterated table"
  needsSchema := true
  complexity := .moderate

/-- Aggregations of a column or of a table. -/
def aggregations : List Pattern :=
  [ { name := "SUM"
      category := .aggregation
      template := "SUM({column})"
      description := "Sum of a column"
      params := ["column"]
      sample := some ⟨"SUM(Sales[Amount])",
        "SUM(sales.amount)"⟩ },
    { iterator "SUMX" "SUM" "Sum of an expression evaluated for each row" with
      sample := some ⟨"SUMX(Sales, Sales[Quantity] * Sales[Discount])",
        "SUM(sales.quantity * sales.discount)"⟩ },
    { name := "AVERAGE"
      category := .aggregation
      template := "AVG({column})"
      description := "Average of a column"
      params := ["column"]
      sample := some ⟨"AVERAGE(Sales[Amount])",
        "AVG(sales.amount)"⟩ },
    iterator "AVERAGEX" "AVG" "Average of an expression evaluated for each row",
    { name := "COUNT"
      category := .aggregation
      template := "COUNT({column})"
      description := "Count of non-blank values in a column"
      params := ["column"]
      sample := some ⟨"COUNT(Sales[SaleId])",
        "COUNT(sales.sale_id)"⟩ },
    { name := "COUNTA"
      category := .aggregation
      template := "COUNT({column})"
      description := "Count of non-blank values of any type"
      params := ["column"] },
    iterator "COUNTX" "COUNT" "Count of non-blank expression results per row",
    { name := "COUNTBLANK"
      category := .aggregation
      template := "SUM(CASE WHEN {column} IS NULL THEN 1 ELSE 0 END)"
      description := "Count of blank values in a column"
      params := ["column"] },
    { name := "COUNTROWS"
      category := .aggregation
      template := "COUNT(*)"
      description := "Count of rows in a table"
      params := ["table"]
      sample := some ⟨"COUNTROWS(Sales)",
        "COUNT(*)"⟩ },
    { name := "DISTINCTCOUNT"
      category := .aggregation
      template := "COUNT(DISTINCT {column})"
      description := "Count of distinct values"
      params := ["column"]
      sample := some ⟨"DISTINCTCOUNT(Sales[CustomerKey])",
        "COUNT(DISTINCT sales.customer_key)"⟩ },
    { name := "MIN"
      category := .aggregation
      template := "MIN({column})"
      description := "Minimum value in a column"
      params := ["column"] },
    { name := "MAX"
      category := .aggregation
      template := "MAX({column})"
      description := "Maximum value in a column"
      params := ["column"] },
    iterator "MINX" "MIN" "Minimum of an expression evaluated for each row",
    iterator "MAXX" "MAX" "Maximum of an expression evaluated for each row"]

/-- Functions that filter, and those that take filters away. -/
def filters : List Pattern :=
  [ { name := "CALCULATE"
      category := .filter
      template := "(SELECT {expression} FROM {from}{where})"
      description := "Evaluate expression in modified filter context"
      params := ["expression", "filters"]
      separator := some " AND "
      notes := some "Filters become WHERE conditions; joins follow the relationship graph"
      sample := some ⟨"CALCULATE(SUM(Sales[Amount]), Store[Region] = \"West\")",
        "(SELECT SUM(sales.amount) FROM sales JOIN dim_store "
          ++ "ON sales.store_key = dim_store.store_key WHERE dim_store.region = 'West')"⟩
      needsSchema := true
      complexity := .complex },
    { name := "CALCULATETABLE"
      category := .filter
      template := "(SELECT * FROM {from}{where})"
      description := "Table expression evaluated in modified filter context"
      params := ["table", "filters"]
      separator := some " AND "
      needsSchema := true
      complexity := .complex },
    { name := "FILTER"
      category := .filter
      template := "(SELECT * FROM {table} WHERE {condition})"
      description := "Returns a filtered table"
      params := ["table", "condition"]
      notes := some "Often used inside CALCULATE or an X iterator"
      needsSchema := true
      complexity := .moderate },
    { name := "ALL"
      category := .filter
      template := "(SELECT * FROM {table})"
      description := "Removes all filters from a table or columns"
      params := ["table"]
      notes := some "Inside CALCULATE, drops the matching WHERE conditions"
      needsSchema := true
      complexity := .complex },
    { name := "ALLEXCEPT"
      category := .filter
      template := "(SELECT * FROM {table})"
      description := "Removes filters except on the listed columns"
      params := ["table", "columns"]
      separator := some ", "
      needsSchema := true
      complexity := .complex },
    { name := "REMOVEFILTERS"
      category := .filter
      template := "(SELECT * FROM {table})"
      description := "Clears filters from a table or columns"
      params := ["table"]
      needsSchema := true
      complexity := .complex },
    { name := "KEEPFILTERS"
      category := .filter
      template := "{condition}"
      description := "Adds a filter without overriding existing ones"
      params := ["condition"]
      complexity := .moderate },
    { name := "VALUES"
      category := .filter
      template := "(SELECT DISTINCT {column} FROM {table})"
      description := "Returns distinct values from a column"
      params := ["column"] },
    { name := "DISTINCT"
      category := .filter
      template := "(SELECT DISTINCT {column} FROM {table})"
      description := "Returns distinct values from a column"
      params := ["column"] }]

/-- Functions on dates, anchored at the current date. -/
def timeIntelligence : List Pattern :=
  [ { name := "SAMEPERIODLASTYEAR"
      category := .timeIntelligence
      template := "{date_column} BETWEEN DATEADD(year, -1, DATE_TRUNC('year', {current_date})) "
        ++ "AND DATEADD(year, -1, {current_date})"
      description := "Returns dates shifted back one year"
      params := ["date_column"]
      defaults := [("current_date", today)]
      notes := some "Use with date filter context"
      sample := some ⟨"SAMEPERIODLASTYEAR('Date'[Date])",
        "dim_date.date BETWEEN DATEADD(year, -1, DATE_TRUNC('year', CURRENT_DATE())) "
          ++ "AND DATEADD(year, -1, CURRENT_DATE())"⟩
      needsSchema := true
      isDialectSpecific := true
      complexity := .moderate },
    { name := "DATEADD"
      category := .timeIntelligence
      template := "DATEADD({interval}, {number}, {date_column})"
      description := "Returns dates shifted by specified interval"
      params := ["date_column", "number", "interval"]
      notes := some "Intervals: day, week, month, quarter, year"
      sample := some ⟨"DATEADD('Date'[Date], -1, MONTH)",
        "DATEADD(month, -1, dim_date.date)"⟩
      isDialectSpecific := true },
    toDate "DATESYTD" "year" "Returns year-to-date dates",
    toDate "DATESQTD" "quarter" "Returns quarter-to-date dates",
    toDate "DATESMTD" "month" "Returns month-to-date dates",
    totalToDate "TOTALYTD" "Year-to-date total",
    totalToDate "TOTALQTD" "Quarter-to-date total",
    totalToDate "TOTALMTD" "Month-to-date total",
    previousPeriod "PREVIOUSYEAR" "year" "Returns dates for the previous year",
    previousPeriod "PREVIOUSQUARTER" "quarter" "Returns dates for the previous quarter",
    previousPeriod "PREVIOUSMONTH" "month" "Returns dates for the previous month",
    { name := "PARALLELPERIOD"
      category := .timeIntelligence
      template := "DATEADD({interval}, {number}, {date_column})"
      description := "Returns parallel period dates"
      params := ["date_column", "number", "interval"]
      needsSchema := true
      isDialectSpecific := true
      complexity := .moderate }]

/-- Conditions and connectives. -/
def logicals : List Pattern :=
  [ { name := "IF"
      category := .logical
      template := "CASE WHEN {condition} THEN {true_result} ELSE {false_result} END"
      description := "Conditional expression"
      params := ["condition", "true_result", "false_result"]
      defaults := [("false_result", "NULL")]
      sample := some ⟨"IF(Sales[Amount] > 1000, \"High\", \"Low\")",
        "CASE WHEN sales.amount > 1000 THEN 'High' ELSE 'Low' END"⟩ },
    { name := "SWITCH"
      category := .logical
      template := "CASE {expression} {cases} END"
      description := "Multi-way conditional"
      params := ["expression", "cases"]
      separator := some " "
      notes := some "SWITCH(TRUE(), ...) becomes a searched CASE"
      sample := some ⟨"SWITCH(Date[Month], 1, \"Jan\", 2, \"Feb\", \"Other\")",
        "CASE dim_date.month WHEN 1 THEN 'Jan' WHEN 2 THEN 'Feb' ELSE 'Other' END"⟩
      complexity := .moderate },
    { name := "IFERROR"
      category := .logical
      template := "COALESCE({value}, {value_if_error})"
      description := "Returns alternate value if error"
      params := ["value", "value_if_error"]
      notes := some "SQL errors abort the query; only NULL results fall back"
      complexity := .moderate },
    { name := "ISBLANK"
      category := .logical
      template := "({value} IS NULL)"
      description := "Check if value is blank/null"
      params := ["value"]
      sample := some ⟨"ISBLANK(Customer[Email])",
        "(dim_customer.email IS NULL)"⟩ },
    { name := "COALESCE"
      category := .logical
      template := "COALESCE({values})"
      description := "Returns first non-null value"
      params := ["values"]
      separator := some ", " },
    { name := "AND"
      category := .logical
      template := "({left} AND {right})"
      description := "Logical conjunction"
      params := ["left", "right"] },
    { name := "OR"
      category := .logical
      template := "({left} OR {right})"
      description := "Logical disjunction"
      params := ["left", "right"] },
    { name := "NOT"
      category := .logical
      template := "(NOT {value})"
      description := "Logical negation"
      params := ["value"] }]

/-- Functions on numbers. -/
def maths : List Pattern :=
  [ { name := "DIVIDE"
      category := .math
      template := "CASE WHEN {denominator} = 0 THEN {alternate} "
        ++ "ELSE {numerator} / {denominator} END"
      description := "Safe division with zero handling"
      params := ["numerator", "denominator", "alternate"]
      defaults := [("alternate", "NULL")]
      notes := some "DIVIDE(a, b, alt) = if b=0 then alt else a/b"
      sample := some ⟨"DIVIDE(Sales[Amount], Sales[Quantity])",
        "CASE WHEN sales.quantity = 0 THEN NULL ELSE sales.amount / sales.quantity END"⟩ },
    { name := "ABS"
      category := .math
      template := "ABS({value})"
      description := "Absolute value"
      params := ["value"] },
    { name := "ROUND"
      category := .math
      template := "ROUND({value}, {decimals})"
      description := "Round to specified decimals"
      params := ["value", "decimals"]
      defaults := [("decimals", "0")] },
    { name := "INT"
      category := .math
      template := "FLOOR({value})"
      description := "Round down to integer"
      params := ["value"] },
    { name := "CEILING"
      category := .math
      template := "CEIL({value})"
      description := "Round up to integer"
      params := ["value"] },
    { name := "MOD"
      category := .math
      template := "MOD({number}, {divisor})"
      description := "Modulo operation"
      params := ["number", "divisor"] },
    { name := "POWER"
      category := .math
      template := "POWER({base}, {exponent})"
      description := "Raise to power"
      params := ["base", "exponent"] },
    { name := "SQRT"
      category := .math
      template := "SQRT({value})"
      description := "Square root"
      params := ["value"] },
    { name := "EXP"
      category := .math
      template := "EXP({value})"
      description := "e raised to a power"
      params := ["value"] },
    { name := "LN"
      category := .math
      template := "LN({value})"
      description := "Natural logarithm"
      params := ["value"] },
    { name := "LOG"
      category := .math
      template := "LOG({base}, {value})"
      description := "Logarithm to a base (default 10)"
      params := ["value", "base"]
      defaults := [("base", "10")] },
    { name := "SIGN"
      category := .math
      template := "SIGN({value})"
      description := "Sign of a number"
      params := ["value"] }]

/-- Functions on text. -/
def texts : List Pattern :=
  [ { name := "CONCATENATE"
      category := .text
      template := "CONCAT({text1}, {text2})"
      description := "Concatenate two strings"
      params := ["text1", "text2"]
      sample := some ⟨"CONCATENATE(Customer[CustomerName], Customer[Email])",
        "CONCAT(dim_customer.customer_name, dim_customer.email)"⟩ },
    { name := "LEFT"
      category := .text
      template := "LEFT({text}, {num_chars})"
      description := "Left substring"
      params := ["text", "num_chars"]
      defaults := [("num_chars", "1")] },
    { name := "RIGHT"
      category := .text
      template := "RIGHT({text}, {num_chars})"
      description := "Right substring"
      params := ["text", "num_chars"]
      defaults := [("num_chars", "1")] },
    { name := "MID"
      category := .text
      template := "SUBSTR({text}, {start}, {num_chars})"
      description := "Middle substring"
      params := ["text", "start", "num_chars"]
      isDialectSpecific := true },
    { name := "LEN"
      category := .text
      template := "LENGTH({text})"
      description := "String length"
      params := ["text"]
      isDialectSpecific := true },
    { name := "UPPER"
      category := .text
      template := "UPPER({text})"
      description := "Convert to uppercase"
      params := ["text"] },
    { name := "LOWER"
      category := .text
      template := "LOWER({text})"
      description := "Convert to lowercase"
      params := ["text"] },
    { name := "TRIM"
      category := .text
      template := "TRIM({text})"
      description := "Remove leading/trailing whitespace"
      params := ["text"] },
    { name := "SUBSTITUTE"
      category := .text
      template := "REPLACE({text}, {old_text}, {new_text})"
      description := "Replace text"
      params := ["text", "old_text", "new_text"] },
    { name := "FORMAT"
      category := .text
      template := "TO_VARCHAR({value}, {format_string})"
      description := "Format value as string"
      params := ["value", "format_string"]
      notes := some "Format strings differ between DAX and SQL"
      isDialectSpecific := true
      complexity := .moderate }]

/-- Functions that make tables. -/
def tables : List Pattern :=
  [ { name := "SUMMARIZE"
      category := .table
      template := "(SELECT {group_by}, {aggregations} FROM {table} GROUP BY {group_by})"
      description := "Group by and aggregate"
      params := ["table", "group_by"]
      separator := some ", "
      needsSchema := true
      complexity := .moderate },
    { name := "ADDCOLUMNS"
      category := .table
      template := "(SELECT *, {columns} FROM {table})"
      description := "Add calculated columns to table"
      params := ["table", "columns"]
      separator := some ", "
      needsSchema := true
      complexity := .moderate },
    { name := "SELECTCOLUMNS"
      category := .table
      template := "(SELECT {columns} FROM {table})"
      description := "Select specific columns with optional rename"
      params := ["table", "columns"]
      separator := some ", "
      needsSchema := true
      complexity := .moderate },
    { name := "TOPN"
      category := .table
      template := "(SELECT * FROM {table} ORDER BY {order_by} {direction} LIMIT {n})"
      description := "Top N rows"
      params := ["n", "table", "order_by", "direction"]
      defaults := [("direction", "DESC")]
      isDialectSpecific := true
      complexity := .moderate },
    { name := "UNION"
      category := .table
      template := "(SELECT * FROM {table1} UNION ALL SELECT * FROM {table2})"
      description := "Combine tables"
      params := ["table1", "table2"] },
    { name := "CROSSJOIN"
      category := .table
      template := "(SELECT * FROM {table1} CROSS JOIN {table2})"
      description := "Cartesian product of tables"
      params := ["table1", "table2"] }]

/-- Functions that follow relationships. -/
def relationships : List Pattern :=
  [ { name := "RELATED"
      category := .relationship
      template := "{column}"
      description := "Get value from related table"
      params := ["column"]
      notes := some "Requires JOIN in SQL based on relationship"
      needsSchema := true
      complexity := .moderate },
    { name := "RELATEDTABLE"
      category := .relationship
      template := "(SELECT * FROM {table})"
      description := "Get related table rows"
      params := ["table"]
      needsSchema := true
      complexity := .moderate }]

/-- All patterns in order. -/
def builtin : List Pattern :=
  aggregations ++ filters ++ timeIntelligence ++ logicals ++ maths ++ texts ++ tables
    ++ relationships

end Catalog

end MeasureSql
