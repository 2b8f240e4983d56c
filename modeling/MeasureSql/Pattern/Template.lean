import MeasureSql.Sql.Dialect
import MeasureSql.Text.Identifier

/-!
# Templates

A template is SQL with holes: names in braces.  Filling a template puts a value in place of every
hole at once, so that a value is never looked at again.  Before that, the functions that the
template calls are given the names they have in the dialect at hand.

## Main definitions

* `Template.Piece`, `Template.pieces` — a template as literal characters and holes.
* `Template.holes` — the names of the holes.
* `Template.renameFunctions` — a template in the words of a dialect.
* `Template.fill` — a template with its holes filled.
-/

namespace MeasureSql

/-- Values for the holes of a template, by name. -/
abbrev Bindings := List (String × String)

namespace Bindings

/-- A binding that takes the place of an earlier one of the same name. -/
def insert (b : Bindings) (name value : String) : Bindings :=
  b.filter (·.1 != name) ++ [(name, value)]

/-- Is the name bound? -/
def contains (b : Bindings) (name : String) : Bool :=
  b.any (·.1 == name)

end Bindings

/-- A template has a hole that nothing fills. -/
inductive TemplateError where
  | unbound (pattern hole : String)
  deriving DecidableEq, Repr

/-- The wording of the error. -/
def TemplateError.message : TemplateError → String
  | .unbound pattern hole =>
    "pattern " ++ pattern ++ ": placeholder \x7b" ++ hole ++ "\x7d is not bound"

namespace Template

/-- May the character begin the name of a hole or of a function? -/
def isNameStart (c : Char) : Bool :=
  c.isAlpha || c == '_'

/-- May the character stand inside the name of a hole or of a function? -/
def isNamePart (c : Char) : Bool :=
  c.isAlphanum || c == '_'

/-- A character of a template, or a hole. -/
inductive Piece where
  | char (c : Char)
  | hole (name : String)
  deriving DecidableEq, Repr

/-- A hole whose opening brace has been read: its name, and what follows its closing brace. -/
def hole? : List Char → Option (List Char × List Char)
  | c :: cs =>
    if isNameStart c then match cs.dropWhile isNamePart with
      | '\x7d' :: rest => some (c :: cs.takeWhile isNamePart, rest)
      | _ => none
    else none
  | [] => none

/-- The pieces of a template; braces around anything but a name are plain characters.  Every piece
takes at least one character, so the number of characters bounds the number of pieces. -/
def piecesFrom : Nat → List Char → List Piece
  | 0, _ => []
  | _, [] => []
  | fuel + 1, c :: cs =>
    if c == '\x7b' then match hole? cs with
      | some (name, rest) => .hole (String.ofList name) :: piecesFrom fuel rest
      | none => .char c :: piecesFrom fuel cs
    else .char c :: piecesFrom fuel cs

/-- The pieces of a template. -/
def pieces (template : String) : List Piece :=
  piecesFrom template.toList.length template.toList

/-- The holes among some pieces, each name where it appears first. -/
def holesOf (ps : List Piece) : List String :=
  (ps.filterMap fun | .hole name => some name | .char _ => none).eraseDups

/-- The holes of a template, each name where it appears first. -/
def holes (template : String) : List String :=
  holesOf (pieces template)

/-- Renames the functions that are called in a text.  `inWord` says whether the character before was
part of a word, and `run` is the name being read, last character first: a name counts only when it
begins a word, and a call only when a parenthesis follows directly. -/
def renameFrom (d : Dialect) (inWord : Bool) (run : List Char) : List Char → List Char
  | [] => run.reverse
  | c :: cs =>
    if run.isEmpty then
      if isNameStart c && !inWord then renameFrom d true [c] cs
      else c :: renameFrom d (Text.isWordChar c) [] cs
    else if isNamePart c then renameFrom d true (c :: run) cs
    else
      let name := run.reverse
      let shown := if c == '(' then
          ((d.renamed? (String.ofList name)).map String.toList).getD name
        else name
      shown ++ c :: renameFrom d (Text.isWordChar c) [] cs

/-- A template in the words of a dialect. -/
def renameFunctions (d : Dialect) (template : String) : String :=
  String.ofList (renameFrom d false [] template.toList)

/-- One piece with its value. -/
def fillPiece (value : String → Option String) : Piece → List Char
  | .char c => [c]
  | .hole name => ((value name).getD "").toList

/-- Fills every hole of a template, or names the first one without a value. -/
def fill (pattern template : String) (value : String → Option String) :
    Except TemplateError String :=
  match (holes template).find? fun name => (value name).isNone with
  | some name => .error (.unbound pattern name)
  | none => .ok (String.ofList ((pieces template).flatMap (fillPiece value)))

end Template

end MeasureSql
