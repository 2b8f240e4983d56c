import MeasureSql.Text.CaseMap

/-!
# Filter contexts

The conditions in force while an expression is evaluated.  Each condition belongs to a column of a
table, known by the key `TABLE.COLUMN` in capitals; keys stand in the order in which they were first
given a condition.  Conditions can be taken away again, for a column, for a whole table, or for all
columns of a table but some.

## Main definitions

* `FilterContext` — the conditions of each key, and the keys that were taken away.
* `FilterContext.add`, `FilterContext.removeColumn`, `FilterContext.removeTable`,
  `FilterContext.keepOnly` — changes.
* `FilterContext.effective`, `FilterContext.whereClause` — the conditions in force.
-/

namespace MeasureSql

/-- The conditions of each key, and the keys that were taken away. -/
structure FilterContext where
  entries : List (String × List String) := []
  removed : List String := []
  deriving DecidableEq, Repr, Inhabited

namespace FilterContext

/-- No conditions. -/
def empty : FilterContext := {}

/-- The key of a column. -/
def key (table column : String) : String :=
  Text.upper table ++ "." ++ Text.upper column

/-- Adds a condition to a key: after its other conditions, or in a new place at the end. -/
def addEntry (key condition : String) : List (String × List String) → List (String × List String)
  | [] => [(key, [condition])]
  | e :: rest =>
    if e.1 == key then (e.1, e.2 ++ [condition]) :: rest else e :: addEntry key condition rest

/-- Adds a condition on a column, which is then no longer taken away. -/
def add (f : FilterContext) (table column condition : String) : FilterContext :=
  let k := key table column
  { entries := addEntry k condition f.entries, removed := f.removed.filter (· != k) }

/-- Takes away the keys that satisfy a condition. -/
def removeWhere (f : FilterContext) (p : String → Bool) : FilterContext :=
  { entries := f.entries.filter fun e => !p e.1
    removed := f.removed ++ (f.entries.filter fun e => p e.1).map (·.1) }

/-- Takes away the conditions on one column, whether it has any or not. -/
def removeColumn (f : FilterContext) (table column : String) : FilterContext :=
  let k := key table column
  { entries := f.entries.filter (·.1 != k), removed := f.removed ++ [k] }

/-- Does a key belong to a table? -/
def ofTable (table key : String) : Bool :=
  (Text.upper table ++ ".").toList.isPrefixOf key.toList

/-- Takes away the conditions on every column of a table. -/
def removeTable (f : FilterContext) (table : String) : FilterContext :=
  f.removeWhere (ofTable table)

/-- Takes away the conditions on every column of a table but those given. -/
def keepOnly (f : FilterContext) (table : String) (columns : List String) : FilterContext :=
  let kept := columns.map (key table)
  f.removeWhere fun k => ofTable table k && !kept.contains k

/-- Was the column taken away and not given a condition since? -/
def isRemoved (f : FilterContext) (table column : String) : Bool :=
  f.removed.contains (key table column)

/-- The conditions in force, by key. -/
def effective (f : FilterContext) : List (String × List String) :=
  f.entries.filter fun e => !f.removed.contains e.1

/-- Is no condition in force? -/
def isEmpty (f : FilterContext) : Bool :=
  f.effective.isEmpty

/-- All conditions in force, joined by `AND`. -/
def whereClause (f : FilterContext) : String :=
  " AND ".intercalate (f.effective.flatMap (·.2))

end FilterContext

end MeasureSql
