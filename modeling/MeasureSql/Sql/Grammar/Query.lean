import MeasureSql.Sql.Grammar.Expression

/-!
# Queries

The rules for queries and for texts of several statements, and the whole grammar.

## Main definitions

* `query`, `select`, `table` — the parts of a query.
* `statements` — queries with semicolons between them.
* `rules` — the rule of each phrase.
-/

namespace MeasureSql.Sql.Grammar

/-- The columns that a star leaves out. -/
def starTail (d : Dialect) : SqlRule :=
  .firstOf
    [(fun ls => [Dialect.snowflake, .duckdb, .bigquery].contains d && nextWord ["EXCLUDE"] ls,
       .both (word "EXCLUDE") (.choose (nextMark ["("]) (inParens (listOf d anyName)) anyName)),
     (fun ls => d == .bigquery && nextWords ["EXCEPT"] ls && nextMark ["("] ls.tail,
       .both (word "EXCEPT") (inParens (listOf d anyName)))]
    .done

/-- All columns, or those of one table. -/
def star (d : Dialect) : SqlRule :=
  .both
    (.choose (nextMark ["*"]) (mark "*")
      (.all
        [.one Lexeme.isNameOrText, mark ".",
         .repeated (next Lexeme.isNameOrText) (.both (.one Lexeme.isNameOrText) (mark ".")),
         mark "*"]))
    (starTail d)

/-- Is the word `FROM` ahead, standing alone where an expression should? -/
def nextLoneFrom (d : Dialect) (ls : List Lexeme) : Bool :=
  nextWord ["FROM"] ls && infixLevel d ls.tail == 0 && !nextMark ["(", "."] ls.tail

/-- Is a plain name ahead, with an equality sign after it? -/
def nextAssignment : List Lexeme → Bool
  | l :: m :: _ =>
    l.isName && m.isMark ["=", "=="] &&
      !l.isWord (["NULL", "EXISTS", "TRIM", "INTERVAL"] ++ timeWords)
  | _ => false

/-- A column named by an equality, which must be all there is of the expression. -/
def assignment (d : Dialect) : SqlRule :=
  .all
    [anyName, .one (·.isMark ["=", "=="]), .use (.expr 20),
     .choose (fun ls => infixLevel d ls == 0) .done .refuse]

/-- An expression with an alias that may be left out. -/
def column : SqlRule :=
  .both expr (optionalAlias endsColumns)

/-- An item of the list of columns. -/
def selectItem (d : Dialect) : SqlRule :=
  .choose (nextLoneFrom d) .refuse
    (.attempt (star d)
      (.choose (fun ls => d == .tsql && nextAssignment ls) (.attempt (assignment d) column) column))

/-- The list of columns. -/
def projection (d : Dialect) : SqlRule :=
  listWith (d == .snowflake || d == .duckdb) (selectItem d)

/-- Are repeated rows kept? -/
def distinct (d : Dialect) : SqlRule :=
  .firstOf
    [(nextWords ["ALL", "DISTINCT"], .refuse),
     (nextWord ["ALL"], word "ALL"),
     (nextWord ["DISTINCT"], .both (word "DISTINCT")
       (.optional (nextWord ["ON"]) (.both (word "ON") (inParens (listOf d expr)))))]
    .done

/-- How many rows are taken from the top. -/
def top : SqlRule :=
  .optional (nextWord ["TOP"])
    (.all
      [word "TOP", .choose (nextMark ["("]) (inParens expr) (.one (· == .number)),
       maybeWord ["PERCENT"],
       .optional (nextWords ["WITH", "TIES"]) (words ["WITH", "TIES"])])

/-- What rows are grouped by. -/
def groupBy (d : Dialect) : SqlRule :=
  .both (words ["GROUP", "BY"])
    (.choose (nextWord ["ALL"]) (word "ALL") (listOf d
      (.firstOf
        [(nextWords ["GROUPING", "SETS"],
           .both (words ["GROUPING", "SETS"]) (inParens (listOf d (inParens (maybeList d))))),
         (fun ls => nextMark ["("] ls && nextMark [")"] ls.tail, .both (mark "(") (mark ")"))]
        expr)))
where
  maybeList (d : Dialect) : SqlRule := .optional (fun ls => !nextMark [")"] ls) (listOf d expr)

/-- A clause that a word begins and an expression fills. -/
def clause (w : String) : SqlRule :=
  .optional (nextWord [w]) (.both (word w) expr)

/-- Windows with names. -/
def windows (d : Dialect) : SqlRule :=
  .optional (nextWord ["WINDOW"])
    (.both (word "WINDOW") (listOf d (.all
      [anyName, word "AS", .choose (nextMark ["("]) (window d) anyName])))

/-- A selection of columns and rows. -/
def select (d : Dialect) : SqlRule :=
  .all
    [word "SELECT", distinct d, top, projection d,
     .optional (nextWord ["INTO"]) (.both (word "INTO") objectName),
     .optional (nextWord ["FROM"]) (.both (word "FROM") (listOf d (.use .joinedTable))),
     clause "WHERE",
     .optional (nextWords ["GROUP", "BY"]) (groupBy d),
     clause "HAVING",
     .choose (nextWord ["QUALIFY"]) (.both (clause "QUALIFY") (windows d))
       (.both (windows d) (clause "QUALIFY"))]

/-- An alias of a table that may be left out, with names for its columns. -/
def tableAlias (d : Dialect) : SqlRule :=
  .optional (fun ls => nextWord ["AS"] ls || next (isAlias endsTable) ls)
    (.both (optionalAlias endsTable)
      (.optional (nextMark ["("]) (inParens (listOf d anyName))))

/-- A query in place of a table. -/
def derivedTable (d : Dialect) : SqlRule :=
  .both (inParens (.use .query)) (tableAlias d)

/-- The words with which a join can begin. -/
def joinWords : List String :=
  ["CROSS", "OUTER", "NATURAL", "INNER", "JOIN", "LEFT", "RIGHT", "FULL", "SEMI", "ANTI", "GLOBAL"]

/-- What a join is made with: any row, a condition, or columns of the same name. -/
def joinCondition (d : Dialect) : SqlRule :=
  .firstOf
    [(nextWord ["ON"], .both (word "ON") expr),
     (nextWord ["USING"], .both (word "USING") (inParens (listOf d anyName)))]
    .done

/-- The words that say what kind of join follows. -/
def joinKind : SqlRule :=
  .both (maybeWord ["NATURAL"])
    (.firstOf
      [(nextWord ["LEFT", "RIGHT"], .all
         [oneWord ["LEFT", "RIGHT"], maybeWord ["OUTER", "SEMI", "ANTI"], word "JOIN"]),
       (nextWord ["FULL"], .all [word "FULL", maybeWord ["OUTER"], word "JOIN"]),
       (nextWord ["SEMI", "ANTI"], .both (oneWord ["SEMI", "ANTI"]) (word "JOIN"))]
      (.both (maybeWord ["INNER"]) (word "JOIN")))

/-- A join with the table that is joined. -/
def join (d : Dialect) : SqlRule :=
  .both (maybeWord ["GLOBAL"])
    (.firstOf
      [(nextWord ["CROSS"], .all [word "CROSS", oneWord ["JOIN", "APPLY"], .use .table]),
       (nextWord ["OUTER"], .all [words ["OUTER", "APPLY"], .use .table])]
      (.all [joinKind, .use .table, joinCondition d]))

/-- A table and what is joined to it. -/
def joinedTable (d : Dialect) : SqlRule :=
  .both (.use .table) (.repeated (nextWord joinWords) (join d))

/-- Tables in parentheses.  Two dialects do without a join there. -/
def tablesInParens (d : Dialect) : SqlRule :=
  .both
    (inParens
      (if d == .snowflake || d == .bigquery then .use .joinedTable
      else
        .attempt
          (.all [.use .table, join d, .repeated (nextWord joinWords) (join d)])
          (.use .tablesInParens)))
    (tableAlias d)

/-- A table by its name, a function that returns one, or a query in its place. -/
def table (d : Dialect) : SqlRule :=
  .firstOf
    [(nextWord ["LATERAL"], .both (word "LATERAL")
       (.choose (nextMark ["("]) (derivedTable d)
         (.all [objectName, .use .call, tableAlias d]))),
     (nextMark ["("], .attempt (derivedTable d) (.use .tablesInParens)),
     (fun ls => nextWord ["UNNEST"] ls && nextMark ["("] ls.tail,
       .all [word "UNNEST", inParens (listOf d expr), tableAlias d])]
    (.all
      [objectName,
       .optional (nextMark ["("]) (.both (mark "(") (arguments d)),
       tableAlias d,
       .optional (fun ls => nextWord ["WITH"] ls && nextMark ["("] ls.tail)
         (.both (word "WITH") (inParens (listOf d expr)))])

/-- Rows written out. -/
def values (d : Dialect) : SqlRule :=
  .both (word "VALUES")
    (listOf d (.both (maybeWord ["ROW"]) (inParens (listOf d expr))))

/-- The body of a query with the set operations that bind more tightly than a level. -/
def queryBody (d : Dialect) (level : Nat) : SqlRule :=
  .both
    (.firstOf
      [(nextWord ["SELECT"], .use .select),
       (nextMark ["("], inParens (.use .query)),
       (nextWord ["VALUES"], values d),
       (nextWord ["TABLE"], .both (word "TABLE") objectName)]
      .refuse)
    (.repeated (fun ls => level < setLevel ls)
      (.firstOf
        [(nextWord ["INTERSECT"], setOperation 20)]
        (setOperation 10)))
where
  /-- How tightly the set operation ahead binds, zero if there is none. -/
  setLevel (ls : List Lexeme) : Nat :=
    if nextWord ["UNION", "EXCEPT"] ls then 10 else if nextWord ["INTERSECT"] ls then 20 else 0
  /-- A set operation with the query after it. -/
  setOperation (level : Nat) : SqlRule :=
    .all
      [oneWord ["UNION", "EXCEPT", "INTERSECT"], maybeWord ["ALL", "DISTINCT"],
       .optional (nextWords ["BY", "NAME"]) (words ["BY", "NAME"]), .use (.queryBody level)]

/-- A query with a name, for the query that follows. -/
def namedQuery (d : Dialect) : SqlRule :=
  .all
    [anyName,
     .optional (nextMark ["("]) (inParens (listOf d anyName)),
     word "AS",
     if d == .postgres then
       .firstOf [(nextWord ["MATERIALIZED"], word "MATERIALIZED"),
         (nextWords ["NOT", "MATERIALIZED"], words ["NOT", "MATERIALIZED"])] .done
     else .done,
     inParens (.use .query)]

/-- How many rows are returned, and from which on. -/
def limits (d : Dialect) : SqlRule :=
  .firstOf
    [(nextWord ["LIMIT"], .both limit (.optional (nextWord ["OFFSET"]) offset)),
     (nextWord ["OFFSET"], .both offset (.optional (nextWord ["LIMIT"]) limit))]
    .done
where
  limit : SqlRule :=
    .both (word "LIMIT") (.choose (nextWord ["ALL"]) (word "ALL")
      (.both expr
        (if d == .bigquery then .optional (nextMark [","]) (.both (mark ",") expr) else .done)))
  offset : SqlRule :=
    .all [word "OFFSET", expr, maybeWord ["ROW", "ROWS"]]

/-- The rows to fetch. -/
def fetch : SqlRule :=
  .optional (nextWord ["FETCH"])
    (.all
      [word "FETCH", oneWord ["FIRST", "NEXT"],
       .optional (fun ls => !nextWord ["ROW", "ROWS"] ls) (.both expr (maybeWord ["PERCENT"])),
       oneWord ["ROW", "ROWS"],
       .choose (nextWord ["ONLY"]) (word "ONLY") (words ["WITH", "TIES"])])

/-- A query. -/
def query (d : Dialect) : SqlRule :=
  .nested (.all
    [.optional (nextWord ["WITH"])
       (.all [word "WITH", maybeWord ["RECURSIVE"], listOf d (namedQuery d)]),
     .use (.queryBody 0),
     .optional (nextWords ["ORDER", "BY"]) (orderBy d),
     limits d, fetch])

/-- Can a query begin here? -/
def nextStatement (ls : List Lexeme) : Bool :=
  nextWord ["SELECT", "WITH", "VALUES"] ls || nextMark ["("] ls

/-- Queries with semicolons between them.  The word `END` after a query ends the text. -/
def statements : SqlRule :=
  .both (.repeated (nextMark [";"]) (mark ";"))
    (.choose List.isEmpty .done
      (.choose nextStatement
        (.both (.nested (.use .query))
          (.firstOf
            [(nextMark [";"], .use .statements),
             (nextWord ["END"], .repeated (fun ls => !ls.isEmpty) (.one fun _ => true))]
            .done))
        .refuse))

/-- The rule of each phrase. -/
def rules (d : Dialect) : Phrase → SqlRule
  | .statements => statements
  | .query => query d
  | .queryBody level => queryBody d level
  | .select => select d
  | .table => table d
  | .joinedTable => joinedTable d
  | .tablesInParens => tablesInParens d
  | .expr level =>
    .nested (.both (.use .operand)
      (.repeated (fun ls => level < infixLevel d ls) (.use .operatorTail)))
  | .operand => operand d
  | .operatorTail => operatorTail d
  | .call => call d
  | .argument => argument d
  | .orderItem => orderItem
  | .typeName => typeName

end MeasureSql.Sql.Grammar
