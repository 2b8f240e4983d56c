import MeasureSql.Sql.Grammar.Rule

/-!
# Phrases of SQL

The phrases of the grammar that contain each other, and the rules of which the others are made:
single words and marks, lists, and the words that cannot follow an expression as its alias.

## Main definitions

* `Phrase` — the phrases.
* `word`, `mark`, `anyName`, `inParens`, `listOf` — small rules.
-/

namespace MeasureSql.Sql

/-- The phrases of the grammar that contain each other.  An expression takes the operators that bind
more tightly than its level, and the body of a query the set operations. -/
inductive Phrase where
  | statements
  | query
  | queryBody (level : Nat)
  | select
  | table
  | joinedTable
  | tablesInParens
  | expr (level : Nat)
  | operand
  | operatorTail
  | call
  | argument
  | orderItem
  | typeName
  deriving DecidableEq, Repr

/-- A rule of the grammar. -/
abbrev SqlRule := Rule Phrase

namespace Grammar

/-- One word. -/
def word (w : String) : SqlRule :=
  .one (·.isWord [w])

/-- Words one after the other. -/
def words (ws : List String) : SqlRule :=
  .all (ws.map word)

/-- One of some words. -/
def oneWord (ws : List String) : SqlRule :=
  .one (·.isWord ws)

/-- One mark. -/
def mark (sign : String) : SqlRule :=
  .one (·.isMark [sign])

/-- A word or a name in quotes; no word is reserved here. -/
def anyName : SqlRule :=
  .one Lexeme.isName

/-- A text in single quotes. -/
def text : SqlRule :=
  .one (· == .text)

/-- A whole expression. -/
def expr : SqlRule :=
  .use (.expr 0)

/-- A word that may be left out. -/
def maybeWord (ws : List String) : SqlRule :=
  .optional (nextWord ws) (oneWord ws)

/-- A rule in parentheses. -/
def inParens (rule : SqlRule) : SqlRule :=
  .all [mark "(", rule, mark ")"]

/-- Does a query lie ahead? -/
def nextQuery : List Lexeme → Bool :=
  nextWord ["SELECT", "WITH"]

/-- Does a query in parentheses lie ahead? -/
def nextQueryInParens (ls : List Lexeme) : Bool :=
  nextMark ["("] ls && nextQuery ls.tail

/-- The words that end a list of columns, so that none of them can be an alias without `AS`. -/
def endsColumns : List String :=
  ["WITH", "EXPLAIN", "ANALYZE", "SELECT", "WHERE", "GROUP", "SORT", "HAVING", "ORDER", "TOP",
   "LATERAL", "VIEW", "LIMIT", "OFFSET", "FETCH", "UNION", "EXCEPT", "INTERSECT", "CLUSTER",
   "DISTRIBUTE", "RETURNING", "FROM", "INTO", "END"]

/-- The words that can follow a table, so that none of them can be an alias without `AS`. -/
def endsTable : List String :=
  ["WITH", "EXPLAIN", "ANALYZE", "SELECT", "WHERE", "GROUP", "SORT", "HAVING", "ORDER", "PIVOT",
   "UNPIVOT", "TOP", "LATERAL", "VIEW", "LIMIT", "OFFSET", "FETCH", "UNION", "EXCEPT", "INTERSECT",
   "ON", "JOIN", "INNER", "CROSS", "FULL", "LEFT", "RIGHT", "NATURAL", "USING", "CLUSTER",
   "DISTRIBUTE", "GLOBAL", "ANTI", "SEMI", "RETURNING", "ASOF", "MATCH_CONDITION", "OUTER", "SET",
   "QUALIFY", "WINDOW", "END", "FOR", "PARTITION", "PREWHERE", "SETTINGS", "FORMAT", "START",
   "CONNECT", "MATCH_RECOGNIZE", "SAMPLE", "TABLESAMPLE"]

/-- Can the lexeme be an alias without `AS`, where some words cannot? -/
def isAlias (reserved : List String) : Lexeme → Bool
  | .word w => !reserved.contains w
  | .name | .text => true
  | _ => false

/-- An alias that may be left out. -/
def optionalAlias (reserved : List String) : SqlRule :=
  .firstOf
    [(nextWord ["AS"], .both (word "AS") (.one Lexeme.isNameOrText)),
     (next (isAlias reserved), .one (isAlias reserved))]
    .done

/-- Can a list end here, right after a comma? -/
def endsList : List Lexeme → Bool
  | [] => true
  | l :: _ => l.isMark [")", ";", "]", "\x7d"] || l.isWord endsColumns

/-- A list with commas between its items, and one after the last where that is allowed. -/
def listWith (trailingComma : Bool) (item : SqlRule) : SqlRule :=
  .all
    [item,
     .repeated (fun ls => nextMark [","] ls && !(trailingComma && endsList ls.tail))
       (.both (mark ",") item),
     .optional (nextMark [","]) (mark ",")]

/-- A list in a dialect; one of them allows a comma after the last item. -/
def listOf (d : Dialect) : SqlRule → SqlRule :=
  listWith (d == .duckdb)

/-- Names with points between them. -/
def objectName : SqlRule :=
  .both (.one Lexeme.isNameOrText)
    (.repeated (nextMark ["."]) (.both (mark ".") (.one Lexeme.isNameOrText)))

/-- The keys by which rows are ordered. -/
def orderBy (d : Dialect) : SqlRule :=
  .both (words ["ORDER", "BY"]) (listOf d (.use .orderItem))

end Grammar

end MeasureSql.Sql
