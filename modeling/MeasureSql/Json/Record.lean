import MeasureSql.Json.Basic

/-!
# Records in JSON

How a record with known fields is read from a JSON value.  An object may hold the fields in any
order and other members besides, but no field twice; an array holds the values of the fields in
their order, and may stop early.

## Main definitions

* `Json.record?` — the values of the fields of a record.
* `Json.required?`, `Json.withDefault?` — a field that must be there, and one that need not.
* `Json.text?`, `Json.boolean?`, … — the values of fields.
-/

namespace MeasureSql.Json

/-- The position of the field that goes by a name; a field may have several names. -/
def fieldIndex? (fields : List (List String)) (name : String) : Option Nat :=
  fields.findIdx? (·.contains name)

/-- Puts the members of an object into the places of their fields; a place is filled only once. -/
def fillFields? (fields : List (List String)) :
    List (String × Json) → List (Option Json) → Option (List (Option Json))
  | [], places => some places
  | (name, value) :: rest, places => match fieldIndex? fields name with
    | none => fillFields? fields rest places
    | some i => match places[i]? with
      | some none => fillFields? fields rest (places.set i (some value))
      | _ => none

/-- The values of the fields of a record, in the order of the fields. -/
def record? (fields : List (List String)) : Json → Option (List (Option Json))
  | .obj members => fillFields? fields members (fields.map fun _ => none)
  | .arr items =>
    if items.length ≤ fields.length then
      some (items.map some ++ List.replicate (fields.length - items.length) none)
    else none
  | _ => none

/-- A field that must be there. -/
def required? {α : Type} (read : Json → Option α) : Option Json → Option α
  | some j => read j
  | none => none

/-- A field that may be left out. -/
def withDefault? {α : Type} (default : α) (read : Json → Option α) : Option Json → Option α
  | some j => read j
  | none => some default

/-- A text. -/
def text? : Json → Option String
  | .str s => some s
  | _ => none

/-- A text, or `null` for none. -/
def optionalText? : Json → Option (Option String)
  | .str s => some (some s)
  | .null => some none
  | _ => none

/-- A truth value. -/
def boolean? : Json → Option Bool
  | .bool b => some b
  | _ => none

/-- A list whose items can all be read. -/
def list? {α : Type} (read : Json → Option α) : Json → Option (List α)
  | .arr items => items.mapM read
  | _ => none

/-- One of a set of words, given as a text or as the only member of an object, with `null`. -/
def word? {α : Type} (ofName? : String → Option α) : Json → Option α
  | .str s => ofName? s
  | .obj [(name, .null)] => ofName? name
  | _ => none

end MeasureSql.Json
