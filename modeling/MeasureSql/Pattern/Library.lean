import MeasureSql.Pattern.Catalog

/-!
# Pattern libraries

Patterns by function name.  Names are in capitals and each occurs once; a later pattern of the same
name takes the place of the earlier one.

## Main definitions

* `PatternLibrary`, `PatternLibrary.builtin` — a collection, and the one with the catalog.
* `PatternLibrary.add`, `PatternLibrary.getThenAdd`, `PatternLibrary.get?`,
  `PatternLibrary.ofCategory` — changes and lookups.
* `PatternLibrary.summary` — the collection described in a text.
-/

namespace MeasureSql

/-- Patterns in the order in which their names were first added. -/
structure PatternLibrary where
  patterns : List Pattern := []
  deriving Repr, Inhabited

namespace PatternLibrary

/-- No patterns. -/
def empty : PatternLibrary := {}

/-- The pattern of a function, by its name in any case. -/
def get? (l : PatternLibrary) (function : String) : Option Pattern :=
  let key := Text.upper function
  l.patterns.find? (·.name == key)

/-- Is there a pattern for the function? -/
def contains (l : PatternLibrary) (function : String) : Bool :=
  (l.get? function).isSome

/-- The names in order. -/
def names (l : PatternLibrary) : List String :=
  l.patterns.map (·.name)

/-- The number of patterns. -/
def size (l : PatternLibrary) : Nat :=
  l.patterns.length

/-- Adds a pattern under its name in capitals, in place of one that has the name. -/
def add (l : PatternLibrary) (p : Pattern) : PatternLibrary :=
  let q := { p with name := Text.upper p.name }
  if l.patterns.any (·.name == q.name) then
    ⟨l.patterns.map fun r => if r.name == q.name then q else r⟩
  else ⟨l.patterns ++ [q]⟩

/-- Adds a pattern and gives the one that it replaces. -/
def getThenAdd (l : PatternLibrary) (p : Pattern) : Option Pattern × PatternLibrary :=
  (l.get? p.name, l.add p)

/-- The library with the catalog. -/
def builtin : PatternLibrary :=
  Catalog.builtin.foldl add empty

/-- The patterns of a category, in order. -/
def ofCategory (l : PatternLibrary) (c : PatternCategory) : List Pattern :=
  l.patterns.filter (·.category = c)

/-- The lines on one pattern. -/
def patternLines (p : Pattern) : List String :=
  ("- " ++ p.name ++ ": " ++ p.description) :: match p.sample with
    | some s => ["  DAX: \x60" ++ s.dax ++ "\x60", "  SQL: \x60" ++ s.sql ++ "\x60"]
    | none => []

/-- The lines on one category; a category without patterns has none. -/
def categoryLines (l : PatternLibrary) (c : PatternCategory) : List String :=
  let ps := l.ofCategory c
  if ps.isEmpty then [] else ["", "## " ++ c.title ++ " Functions"] ++ ps.flatMap patternLines

/-- The library described in a text, by category. -/
def summary (l : PatternLibrary) : String :=
  "\n".intercalate ("# DAX → SQL Pattern Reference" :: PatternCategory.all.flatMap l.categoryLines)

end PatternLibrary

end MeasureSql
