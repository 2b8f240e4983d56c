import MeasureSql.Number.Layout

/-!
# JSON values

A JSON value with its members in the order of the text.  Members are a list and not a map: a
repeated name is a fault of a document, and the reader leaves it to the document's rules to say so.
Whole numbers and numbers with a fraction or an exponent are kept apart.

## Main definitions

* `Json` — a value.
* `Json.ofOption`, `Json.strings`, … — building values.
* `Json.lastMember?`, `Json.setMember` — looking up a member, and changing one.
-/

namespace MeasureSql

/-- A JSON value; the members of an object stand in the order of the text. -/
inductive Json where
  | null
  | bool (value : Bool)
  | int (value : Int)
  | float (value : Double)
  | str (value : String)
  | arr (items : List Json)
  | obj (members : List (String × Json))
  deriving Inhabited, Repr

namespace Json

/-- `null` for nothing. -/
def ofOption {α : Type} (f : α → Json) : Option α → Json
  | none => .null
  | some a => f a

/-- A text, or `null`. -/
def optional : Option String → Json :=
  ofOption .str

/-- A list of texts. -/
def strings (xs : List String) : Json :=
  .arr (xs.map .str)

/-- A natural number. -/
def nat (n : Nat) : Json :=
  .int n

/-- The member of that name in an object, the last one if there are several. -/
def lastMember? (j : Json) (name : String) : Option Json :=
  match j with
  | .obj members => (members.reverse.find? (·.1 == name)).map (·.2)
  | _ => none

/-- The same value with a member set: in place of one of that name, or after all others. -/
def setMember (j : Json) (name : String) (value : Json) : Json :=
  match j with
  | .obj members =>
    if members.any (·.1 == name) then
      .obj (members.map fun m => if m.1 == name then (name, value) else m)
    else .obj (members ++ [(name, value)])
  | other => other

end Json

end MeasureSql
