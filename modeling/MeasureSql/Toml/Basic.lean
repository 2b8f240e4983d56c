import MeasureSql.Number.Numeral

/-!
# TOML values

The values of a TOML document.  Of dates and times no more is kept than their text.

## Main definitions

* `Toml` — a value.
* `Toml.get?` — an entry of a table.
-/

namespace MeasureSql

/-- A TOML value; the entries of a table stand in the order in which they were first named. -/
inductive Toml where
  | text (value : String)
  | integer (value : Int)
  | float (value : Double)
  | boolean (value : Bool)
  | moment (text : String)
  | array (items : List Toml)
  | table (entries : List (String × Toml))
  deriving Inhabited, Repr

/-- The entry of a table by its key. -/
def Toml.get? (t : Toml) (key : String) : Option Toml :=
  match t with
  | .table entries => entries.lookup key
  | _ => none

end MeasureSql
