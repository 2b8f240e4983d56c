import MeasureSql.Sql.Grammar.Phrase

/-!
# Expressions

The rules for expressions.  An expression is an operand with any number of operators after it, each
with what belongs to it.  Hardly any word is reserved: where the form that a word begins cannot be
completed, the word is a name.

## Main definitions

* `infixLevel` — how tightly the operator ahead binds, zero if there is none.
* `operand`, `operatorTail` — an operand, and an operator with what follows it.
* `call`, `argument` — what follows the name of a function.
* `typeName`, `orderItem` — the other parts.
-/

namespace MeasureSql.Sql.Grammar

/-! ## Operators -/

/-- Operators that stand between two operands and bind equally tightly. -/
structure OperatorGroup where
  holds : Lexeme → Bool
  level : Nat
  isComparison : Bool := false

/-- The operators between two operands. -/
def operatorGroups : List OperatorGroup :=
  [{ holds := (·.isWord ["OR"]), level := 5 },
   { holds := (·.isWord ["AND"]), level := 10 },
   { holds := fun l => l == .operator || l.isMark ["->", "->>", "#>", "#>>", "#-", "@>", "<@", "@@",
       "@?", "?"], level := 16 },
   { holds := (·.isMark ["=", "==", "<", "<=", ">", ">=", "<>", "!="]), level := 20,
     isComparison := true },
   { holds := fun l => l.isMark ["<=>", "~", "~*", "~~"] || l.isWord ["OVERLAPS"], level := 20 },
   { holds := (·.isMark ["|"]), level := 21 },
   { holds := (·.isMark ["^", "#", "<<", ">>"]), level := 22 },
   { holds := (·.isMark ["&"]), level := 23 },
   { holds := (·.isWord ["XOR"]), level := 24 },
   { holds := (·.isMark ["+", "-"]), level := 30 },
   { holds := (·.isMark ["*", "/", "//", "%", "||"]), level := 40 },
   { holds := (·.isMark ["&&", "^@"]), level := 50 }]

/-- The words that match a text against a pattern. -/
def matchWords : List String := ["LIKE", "ILIKE", "RLIKE", "REGEXP", "SIMILAR"]

/-- How tightly the operator ahead binds, zero if there is none. -/
def infixLevel (d : Dialect) (ls : List Lexeme) : Nat :=
  if nextWords ["AT", "TIME", "ZONE"] ls then 41
  else if nextWord ["NOT"] ls then
    if nextWord ["IN", "BETWEEN"] ls.tail then 20
    else if nextWord matchWords ls.tail then 19
    else 0
  else if nextWord ["IS"] ls then 17
  else if nextWord ["IN", "BETWEEN", "OPERATOR"] ls then 20
  else if nextWord matchWords ls then 19
  else if nextWord ["DIV"] ls then 40
  else if nextMark ["::", "!", "["] ls || (d == .snowflake && nextMark [":"] ls) then 50
  else ((operatorGroups.find? fun g => next g.holds ls).map (·.level)).getD 0

/-- The right operand of an operator.  It may be any or all of a list or a query, but only after a
comparison. -/
def rightOperand (g : OperatorGroup) : SqlRule :=
  .choose (nextWord ["ANY", "ALL", "SOME"])
    (if g.isComparison then
      .both (oneWord ["ANY", "ALL", "SOME"])
        (.choose nextQueryInParens (.use (.expr g.level)) (inParens (.use (.expr g.level))))
    else .refuse)
    (.use (.expr g.level))

/-- What follows `IS`. -/
def isTail : SqlRule :=
  .all
    [word "IS", maybeWord ["NOT"],
     .choose (nextWord ["DISTINCT"]) (.both (words ["DISTINCT", "FROM"]) expr)
       (oneWord ["NULL", "TRUE", "FALSE", "UNKNOWN"])]

/-- A list or a query to look a value up in. -/
def inTail (d : Dialect) : SqlRule :=
  .both (word "IN") (inParens (.choose nextQuery (.use .query) (listOf d expr)))

/-- A pattern, and the character that takes the meaning from the next one. -/
def matchTail : SqlRule :=
  .all
    [oneWord matchWords, maybeWord ["TO", "ANY"], .use (.expr 19),
     .optional (nextWord ["ESCAPE"]) (.both (word "ESCAPE") text)]

/-- A test that `NOT` may stand before. -/
def testTail (d : Dialect) : SqlRule :=
  .both (maybeWord ["NOT"])
    (.firstOf
      [(nextWord ["IN"], inTail d),
       (nextWord ["BETWEEN"],
         .all [word "BETWEEN", .use (.expr 20), word "AND", .use (.expr 20)]),
       (nextWord matchWords, matchTail)]
      .refuse)

/-- A place or a range of places in an array. -/
def subscript : SqlRule :=
  .all
    [mark "[", .optional (fun ls => !nextMark [":"] ls) expr,
     .repeated (nextMark [":"])
       (.both (mark ":") (.optional (fun ls => !nextMark [":", "]"] ls) expr)),
     mark "]"]

/-- A path into a document. -/
def path : SqlRule :=
  .all
    [mark ":", anyName,
     .repeated (nextMark [".", "["])
       (.choose (nextMark ["."]) (.both (mark ".") anyName) subscript)]

/-- An operator with what follows it. -/
def operatorTail (d : Dialect) : SqlRule :=
  .firstOf
    [(nextWord ["IS"], isTail),
     (nextWord ["AT"], .both (words ["AT", "TIME", "ZONE"]) (.use (.expr 41))),
     (nextWord (["NOT", "IN", "BETWEEN"] ++ matchWords), testTail d),
     (nextMark ["::"], .both (mark "::") (.use .typeName)),
     (nextMark ["["], subscript),
     (nextMark [":"], path),
     (nextMark ["!"], if d == .postgres then mark "!" else .refuse)]
    (.firstOf
      (operatorGroups.map fun g => (next g.holds, .both (.one g.holds) (rightOperand g)))
      .refuse)

/-! ## Types -/

/-- The words that name a type, so that a text after them is a literal of that type. -/
def typeWords : List String :=
  ["BOOLEAN", "BOOL", "FLOAT", "REAL", "FLOAT4", "FLOAT8", "FLOAT32", "FLOAT64", "DOUBLE",
   "TINYINT", "SMALLINT", "MEDIUMINT", "INT", "INT2", "INT4", "INT8", "INT64", "INTEGER", "BIGINT",
   "VARCHAR", "NVARCHAR", "CHARACTER", "CHAR", "CLOB", "BINARY", "VARBINARY", "BLOB", "BYTES",
   "BIT", "UUID", "DATE", "DATETIME", "TIMESTAMP", "TIMESTAMPTZ", "TIME", "TIMETZ", "JSON",
   "JSONB", "REGCLASS", "STRING", "TEXT", "BYTEA", "NUMERIC", "DECIMAL", "DEC", "BIGNUMERIC",
   "BIGDECIMAL"]

/-- What may follow the first word of a type: its second word, its sizes, its time zone, and marks
for arrays. -/
def typeTail : SqlRule :=
  .all
    [maybeWord ["PRECISION", "VARYING"],
     .optional (nextMark ["("])
       (inParens (listWith false (.one fun l => l.isNameOrText || l == .number))),
     .optional
       (fun ls => nextWord ["WITH", "WITHOUT"] ls && nextWords ["TIME", "ZONE"] ls.tail)
       (.both (oneWord ["WITH", "WITHOUT"]) (words ["TIME", "ZONE"])),
     maybeWord ["UNSIGNED"],
     .repeated (nextMark ["["])
       (.all [mark "[", .optional (next (· == .number)) (.one (· == .number)), mark "]"])]

/-- A type. -/
def typeName : SqlRule :=
  .both objectName typeTail

/-- A text with its type in front. -/
def typedText : SqlRule :=
  .all [oneWord typeWords, typeTail, text]

/-! ## Calls -/

/-- The words with which a call says how to treat missing values. -/
def nullTreatment : SqlRule :=
  .optional (fun ls => nextWords ["IGNORE", "NULLS"] ls || nextWords ["RESPECT", "NULLS"] ls)
    (.both (oneWord ["IGNORE", "RESPECT"]) (word "NULLS"))

/-- A whole row, the columns of one table, or an expression. -/
def columnsOrExpr : SqlRule :=
  .choose (nextMark ["*"]) (mark "*")
    (.attempt
      (.all
        [.one Lexeme.isNameOrText, mark ".",
         .repeated (next Lexeme.isNameOrText) (.both (.one Lexeme.isNameOrText) (mark ".")),
         mark "*"])
      expr)

/-- An argument, perhaps with its name.  In one dialect the name may be any expression. -/
def argument (d : Dialect) : SqlRule :=
  if d == .tsql then
    .both columnsOrExpr (.optional (nextMark [":"]) (.both (mark ":") columnsOrExpr))
  else
    .attempt (.all [.one Lexeme.isNameOrText, .one (·.isMark ["=>", ":="]), columnsOrExpr])
      columnsOrExpr

/-- The arguments of a call after the opening parenthesis, with what may stand behind them. -/
def arguments (d : Dialect) : SqlRule :=
  .choose (nextMark [")"]) (mark ")")
    (.all
      [.firstOf
         [(nextWords ["ALL", "DISTINCT"], .refuse),
          (nextWord ["ALL", "DISTINCT"], oneWord ["ALL", "DISTINCT"])]
         .done,
       listOf d (.use .argument), nullTreatment,
       .optional (nextWords ["ORDER", "BY"]) (orderBy d),
       .optional (nextWord ["LIMIT"]) (.both (word "LIMIT") expr),
       .optional (nextWord ["SEPARATOR"]) (.both (word "SEPARATOR") text),
       mark ")"])

/-- The end of a window's frame. -/
def frameBound : SqlRule :=
  .choose (nextWords ["CURRENT", "ROW"]) (words ["CURRENT", "ROW"])
    (.both (.choose (nextWord ["UNBOUNDED"]) (word "UNBOUNDED") expr)
      (oneWord ["PRECEDING", "FOLLOWING"]))

/-- The rows around a row over which a function is taken. -/
def frame : SqlRule :=
  .both (oneWord ["ROWS", "RANGE", "GROUPS"])
    (.choose (nextWord ["BETWEEN"]) (.all [word "BETWEEN", frameBound, word "AND", frameBound])
      frameBound)

/-- The words with which the parts of a window begin. -/
def windowWords : List String := ["PARTITION", "ORDER", "ROWS", "RANGE", "GROUPS"]

/-- Can the lexeme name a window that this one refines? -/
def isWindowName : Lexeme → Bool
  | .word w => !windowWords.contains w
  | l => l == .name

/-- A window in parentheses. -/
def window (d : Dialect) : SqlRule :=
  inParens (.all
    [.optional (next isWindowName) anyName,
     .optional (nextWords ["PARTITION", "BY"])
       (.both (words ["PARTITION", "BY"]) (listOf d expr)),
     .optional (nextWords ["ORDER", "BY"]) (orderBy d),
     .optional (fun ls => !nextMark [")"] ls) frame])

/-- What may follow the arguments of a call. -/
def callTail (d : Dialect) : SqlRule :=
  .all
    [.optional (nextWords ["WITHIN", "GROUP"])
       (.both (words ["WITHIN", "GROUP"]) (inParens (orderBy d))),
     if [Dialect.postgres, .duckdb, .bigquery].contains d then
       .optional (nextWord ["FILTER"]) (.both (word "FILTER")
         (.optional (nextMark ["("]) (.both (mark "(")
           (.optional (nextWord ["WHERE"]) (.all [word "WHERE", expr, mark ")"])))))
     else .done,
     nullTreatment,
     .optional (nextWord ["OVER"])
       (.both (word "OVER") (.choose (nextMark ["("]) (window d) anyName))]

/-- What follows the name of a function. -/
def call (d : Dialect) : SqlRule :=
  .both (mark "(")
    (.choose (fun ls => d == .snowflake && nextQuery ls) (.both (.use .query) (mark ")"))
      (.all
        [arguments d,
         if d == .bigquery then
           .optional (nextMark ["("]) (.both (mark "(") (arguments d))
         else .done,
         callTail d]))

/-! ## Operands -/

/-- A name with points, or the call of the function of that name. -/
def nameOrCall (d : Dialect) : SqlRule :=
  .all
    [anyName,
     .repeated (nextMark ["."])
       (.both (mark ".") (.one fun l => l.isNameOrText || (d == .postgres && l.isMark ["*"]))),
     .optional (nextMark ["("])
       (if d == .snowflake || d == .tsql then
         .attempt (.all [mark "(", mark "+", mark ")"]) (.use .call)
       else .use .call)]

/-- One of several results by conditions. -/
def caseForm : SqlRule :=
  .all
    [word "CASE", .optional (fun ls => !nextWord ["WHEN"] ls) expr, branch,
     .repeated (nextWord ["WHEN"]) branch,
     .optional (nextWord ["ELSE"]) (.both (word "ELSE") expr), word "END"]
where
  branch : SqlRule := .all [word "WHEN", expr, word "THEN", expr]

/-- A value as another type. -/
def castForm : SqlRule :=
  .both (oneWord ["CAST", "TRY_CAST", "SAFE_CAST"])
    (inParens (.all [expr, word "AS", .use .typeName]))

/-- A part of a date. -/
def extractForm (d : Dialect) : SqlRule :=
  .both (word "EXTRACT")
    (inParens (.all
      [.one Lexeme.isNameOrText,
       .choose (fun ls => (d == .snowflake || d == .bigquery) && nextMark [","] ls) (mark ",")
         (word "FROM"),
       expr]))

/-- A number rounded up or down, perhaps to a unit. -/
def roundForm : SqlRule :=
  .both (oneWord ["CEIL", "FLOOR"])
    (inParens (.both expr
      (.firstOf
        [(nextWord ["TO"], .both (word "TO") anyName),
         (nextMark [","], .both (mark ",") (.one (· == .number)))]
        .done)))

/-- A part of a text. -/
def substringForm : SqlRule :=
  .both (word "SUBSTRING")
    (inParens (.all
      [expr,
       .firstOf [(nextWord ["FROM"], .both (word "FROM") expr),
         (nextMark [","], .both (mark ",") expr)] .done,
       .firstOf [(nextWord ["FOR"], .both (word "FOR") expr),
         (nextMark [","], .both (mark ",") expr)] .done]))

/-- A text with a part replaced. -/
def overlayForm : SqlRule :=
  .both (word "OVERLAY")
    (inParens (.all
      [expr, word "PLACING", expr, word "FROM", expr,
       .optional (nextWord ["FOR"]) (.both (word "FOR") expr)]))

/-- The place of a text in another one. -/
def positionForm : SqlRule :=
  .both (word "POSITION") (inParens (.all [.use (.expr 20), word "IN", expr]))

/-- A text without certain characters at its ends. -/
def trimForm (d : Dialect) : SqlRule :=
  .both (word "TRIM")
    (inParens (.all
      [maybeWord ["BOTH", "LEADING", "TRAILING"], expr,
       .firstOf
         [(nextWord ["FROM"], .both (word "FROM") expr),
          (nextMark [","],
            if d == .snowflake || d == .bigquery then .both (mark ",") (listOf d expr)
            else .refuse)]
         .done]))

/-- The units of time that may follow the length of an interval. -/
def timeUnits : List String :=
  ["YEAR", "QUARTER", "MONTH", "WEEK", "DAY", "HOUR", "MINUTE", "SECOND", "CENTURY", "DECADE",
   "MILLISECOND", "MICROSECOND", "NANOSECOND", "MILLISECONDS", "MICROSECONDS", "NANOSECONDS",
   "DOW", "DOY", "EPOCH", "ISODOW", "ISOYEAR", "JULIAN", "MILLENNIUM", "TIMEZONE", "DATE"]

/-- A length of time. -/
def intervalForm : SqlRule :=
  .all
    [word "INTERVAL", .use .operand, maybeWord timeUnits,
     .optional (nextWord ["TO"]) (.both (word "TO") (oneWord timeUnits))]

/-- Are there rows at all? -/
def existsForm : SqlRule :=
  .both (word "EXISTS") (inParens (.use .query))

/-- A negation. -/
def notForm : SqlRule :=
  .both (word "NOT") (.choose (nextWord ["EXISTS"]) existsForm (.use (.expr 15)))

/-- Values in brackets. -/
def arrayItems (d : Dialect) : SqlRule :=
  .all [mark "[", .optional (fun ls => !nextMark ["]"] ls) (listOf d expr), mark "]"]

/-- An array. -/
def arrayForm (d : Dialect) : SqlRule :=
  .both (word "ARRAY") (.choose (nextMark ["["]) (arrayItems d) (inParens (.use .query)))

/-- A value with named parts. -/
def structForm (d : Dialect) : SqlRule :=
  .both (word "STRUCT")
    (inParens (listOf d (.both expr (.optional (nextWord ["AS"]) (.both (word "AS") anyName)))))

/-- The words that stand for a time, perhaps with arguments. -/
def timeWords : List String :=
  ["CURRENT_TIMESTAMP", "CURRENT_TIME", "CURRENT_DATE", "LOCALTIME", "LOCALTIMESTAMP"]

/-- Words that begin a form, and are names where the form cannot be completed. -/
def openForms (d : Dialect) : List (List String × SqlRule) :=
  [(["CASE"], caseForm), (["CAST", "TRY_CAST", "SAFE_CAST"], castForm),
   (["EXTRACT"], extractForm d), (["CEIL", "FLOOR"], roundForm), (["SUBSTRING"], substringForm),
   (["OVERLAY"], overlayForm), (["POSITION"], positionForm), (["ARRAY"], arrayForm d),
   (["NOT"], notForm)] ++
  if d == .snowflake then [(["INTERVAL"], intervalForm)] else []

/-- Words that always begin their form. -/
def closedForms (d : Dialect) : List (List String × SqlRule) :=
  [(["NULL"], word "NULL"),
   (timeWords, .both (oneWord timeWords)
     (.optional (nextMark ["("]) (.both (mark "(") (arguments d)))),
   (["EXISTS"], existsForm), (["TRIM"], trimForm d)] ++
  (if d == .tsql then [] else [(["TRUE", "FALSE"], oneWord ["TRUE", "FALSE"])]) ++
  (if d == .snowflake then [] else [(["INTERVAL"], intervalForm)]) ++
  (if d == .bigquery then [(["STRUCT"], structForm d)] else []) ++
  (if d == .postgres || d == .bigquery then
    [(userWords, oneWord userWords)]
  else [])
where
  userWords : List String := ["CURRENT_CATALOG", "CURRENT_USER", "SESSION_USER", "USER"]

/-- An operand that begins with a word or a name. -/
def wordOperand (d : Dialect) : SqlRule :=
  .firstOf
    ((closedForms d).map fun (ws, rule) => (nextWord ws, rule))
    (.firstOf
      ((openForms d).map fun (ws, rule) => (nextWord ws, .attempt rule (nameOrCall d)))
      (nameOrCall d))

/-- A query or expressions in parentheses, perhaps with the name of a part. -/
def parenthesized (d : Dialect) : SqlRule :=
  .both (inParens (.choose nextQuery (.use .query) (listOf d expr)))
    (.optional (nextMark ["."]) (.both (mark ".") anyName))

/-- An operand. -/
def operand (d : Dialect) : SqlRule :=
  .attempt typedText
    (.both
      (.firstOf
        [(next Lexeme.isName, wordOperand d),
         (next fun l => l == .number || l == .text || l == .literal,
           .one fun l => l == .number || l == .text || l == .literal),
         (nextMark ["+", "-"], .both (.one (·.isMark ["+", "-"])) (.use (.expr 40))),
         (nextMark ["("], parenthesized d),
         (nextMark ["["], arrayItems d),
         (fun ls => d == .postgres && nextMark ["~", "@", "!!", "|/", "||/"] ls,
           .both (.one (·.isMark ["~", "@", "!!", "|/", "||/"])) (.use (.expr 30))),
         (nextMark [":", "@"], .both (.one (·.isMark [":", "@"]))
           (.one fun l => l.isName || l == .number)),
         (nextMark ["?"], if d == .postgres then .refuse else mark "?")]
        .refuse)
      (.optional (nextWord ["COLLATE"]) (.both (word "COLLATE") objectName)))

/-- A key by which rows are ordered. -/
def orderItem : SqlRule :=
  .all
    [expr, maybeWord ["ASC", "DESC"],
     .optional (fun ls => nextWords ["NULLS", "FIRST"] ls || nextWords ["NULLS", "LAST"] ls)
       (.both (word "NULLS") (oneWord ["FIRST", "LAST"]))]

end MeasureSql.Sql.Grammar
