/-!
# Surroundings

The environment variables and the files that a program finds around it, as a value.  A path is
resolved from the working directory, one name after the other; a name on the way must be that of a
directory.

## Main definitions

* `FileEntry` — a file with its text, or a directory.
* `Surroundings` — variables and files.
* `Surroundings.entry?` — what a path leads to.
-/

namespace MeasureSql.Settings

/-- A file with its text, or a directory. -/
inductive FileEntry where
  | file (content : String)
  | directory
  deriving DecidableEq, Repr

/-- The variables that are set, and the files and directories by their paths. -/
structure Surroundings where
  env : List (String × String) := []
  files : List (String × FileEntry) := []

namespace Surroundings

/-- The value of a variable. -/
def valueOf? (w : Surroundings) (name : String) : Option String :=
  w.env.lookup name

/-- The names in a path. -/
def names (path : String) : List String :=
  (path.splitOn "/").filter fun name => !name.isEmpty && name != "."

/-- What stands at the end of names that lead down from the working directory; a directory is there
when something is in it. -/
def at? (w : Surroundings) (place : List String) : Option FileEntry :=
  if place.isEmpty then some .directory
  else match w.files.find? fun f => names f.1 == place with
    | some f => some f.2
    | none =>
      if w.files.any fun f => place.isPrefixOf (names f.1) then some .directory else none

/-- Follows names from a directory; two points lead back up. -/
def follow (w : Surroundings) : List String → List String → Option FileEntry
  | place, [] => w.at? place
  | place, name :: rest => match w.at? place with
    | some .directory =>
      w.follow (if name == ".." then place.dropLast else place ++ [name]) rest
    | _ => none

/-- What a path leads to.  A path that ends in a slash leads to a directory only. -/
def entry? (w : Surroundings) (path : String) : Option FileEntry :=
  if path.isEmpty || path.startsWith "/" then none
  else match w.follow [] (names path) with
    | some (.file content) => if path.endsWith "/" then none else some (.file content)
    | other => other

end Surroundings

end MeasureSql.Settings
