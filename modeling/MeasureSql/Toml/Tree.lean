import MeasureSql.Toml.Basic

/-!
# Trees of TOML tables

How the lines of a TOML document build up its tables.  A table can be named by a header, by a key
with points, or only on the way to another table; which of these decides whether a later line may
add to it.

## Main definitions

* `Toml.Node` — a value, a table or a series of tables under construction.
* `Toml.define` — gives a value to a key with points.
* `Toml.openTable`, `Toml.openSeries` — what the two kinds of headers do.
-/

namespace MeasureSql.Toml

/-- How a table came about: named by a header, by a key with points, or on the way to a header. -/
inductive Origin where
  | header
  | key
  | passage
  deriving DecidableEq, Repr

/-- A part of a document: a value, a table, or a series of tables of which the last one is open. -/
inductive Node where
  | leaf (value : Toml)
  | branch (origin : Origin) (entries : List (String × Node))
  | series (tables : List (List (String × Node)))

/-- The entries of a table under construction. -/
abbrev Entries := List (String × Node)

/-- The entries with one of them set: in its place, or after all others. -/
def setEntry (entries : Entries) (key : String) (node : Node) : Entries :=
  if entries.any (·.1 == key) then
    entries.map fun e => if e.1 == key then (key, node) else e
  else entries ++ [(key, node)]

/-- Changes the table that a path leads to, which is made where it is missing.  The `origin` is that
of the tables that are made; a key with points does not lead into a table that has a header. -/
def alter (origin : Origin) (change : Origin → Entries → Option Entries) :
    List String → Origin → Entries → Option Entries
  | [], found, entries => change found entries
  | key :: path, _, entries => match entries.lookup key with
    | none => do
      let made ← alter origin change path origin []
      some (setEntry entries key (.branch origin made))
    | some (.leaf _) => none
    | some (.branch found inner) =>
      if origin == .key && found == .header then none
      else do
        let changed ← alter origin change path found inner
        some (setEntry entries key (.branch found changed))
    | some (.series tables) => do
      let changed ← alter origin change path .header (tables.getLast?.getD [])
      some (setEntry entries key (.series (tables.dropLast ++ [changed])))

/-- Gives a value to a key with points, inside the table whose entries these are.  A key is given a
value once, and the table that holds it must have come about by such keys. -/
def define (path : List String) (key : String) (value : Toml) (entries : Entries) :
    Option Entries :=
  alter .key (fun found inner =>
    if (path.isEmpty || found == .key) && (inner.lookup key).isNone then
      some (setEntry inner key (.leaf value))
    else none) path .header entries

/-- Opens a table by a header: one that is new, or that was only passed through before. -/
def openTable (path : List String) (key : String) : Entries → Option Entries :=
  alter .passage (fun _ inner => match inner.lookup key with
    | none => some (setEntry inner key (.branch .header []))
    | some (.branch .passage entries) => some (setEntry inner key (.branch .header entries))
    | some _ => none) path .header

/-- Opens one more table of a series by a header. -/
def openSeries (path : List String) (key : String) : Entries → Option Entries :=
  alter .passage (fun _ inner => match inner.lookup key with
    | none => some (setEntry inner key (.series [[]]))
    | some (.series tables) => some (setEntry inner key (.series (tables ++ [[]])))
    | some _ => none) path .header

/-- Gives a value to a key with points, inside the table that the last header opened. -/
def defineUnder (header path : List String) (key : String) (value : Toml) :
    Entries → Option Entries :=
  alter .passage (fun _ inner => define path key value inner) header .header

mutual

/-- The value of a part of a finished document. -/
def Node.toToml : Node → Toml
  | .leaf value => value
  | .branch _ entries => .table (entriesToToml entries)
  | .series tables => .array (seriesToToml tables)

/-- The entries of a finished table. -/
def entriesToToml : List (String × Node) → List (String × Toml)
  | [] => []
  | (key, node) :: rest => (key, node.toToml) :: entriesToToml rest

/-- The tables of a finished series. -/
def seriesToToml : List (List (String × Node)) → List Toml
  | [] => []
  | entries :: rest => .table (entriesToToml entries) :: seriesToToml rest

end

end MeasureSql.Toml
