import Mathlib.Data.List.Find
import MeasureSql.Proofs.Schema.Forfeit
import MeasureSql.Proofs.Text.Capitals

/-!
# Two ways to a column

A schema finds a column by its key, in full Unicode capitals, in an index that gives each key to the
first column that claims it.  A table finds a column by going through its columns and comparing
names up to the case of the letters A to Z.  Where the names are ASCII texts both go by the same
names, and the column that they find is the first that has the name, in SQL or in expressions.

## Main definitions

* `Text.IsAscii`, `Column.IsAscii` — texts and columns without other characters.

## Main results

* `Column.hasKey_upper` — the two ways to go by a name.
* `Schema.column?_eq_of_ascii` — the two ways to a column.
-/

namespace MeasureSql

namespace Text

/-- All characters are ASCII ones. -/
def IsAscii (s : String) : Prop :=
  ∀ c ∈ s.toList, isAscii c = true

instance (s : String) : Decidable (IsAscii s) :=
  decidable_of_iff (s.toList.all isAscii = true) List.all_eq_true

/-- ASCII texts have the same capitals when they are equal up to the case of letters. -/
theorem upper_beq_upper {s t : String} (hs : IsAscii s) (ht : IsAscii t) :
    (upper s == upper t) = sameIgnoringCase s t := by
  rw [upper_eq_asciiUpper hs, upper_eq_asciiUpper ht, sameIgnoringCase, Bool.eq_iff_iff]
  simp [asciiUpper, String.ofList_inj]

end Text

namespace Column

/-- The names are ASCII texts. -/
def IsAscii (c : Column) : Prop :=
  Text.IsAscii c.name ∧ ∀ daxName ∈ c.daxName, Text.IsAscii daxName

instance (c : Column) : Decidable c.IsAscii :=
  decidable_of_iff (Text.IsAscii c.name ∧ c.daxName.all (fun d => decide (Text.IsAscii d)) = true)
    (by simp [IsAscii, Option.all_eq_true])

/-- **By key and by name**: a column has the capitals of a name when it is called by it. -/
theorem hasKey_upper {c : Column} (hc : c.IsAscii) {name : String} (hn : Text.IsAscii name) :
    c.hasKey (Text.upper name) = c.isCalled name := by
  rw [hasKey, isCalled, Text.upper_beq_upper hc.1 hn]
  cases known : c.daxName with
  | none => rfl
  | some daxName => rw [Option.any_some, Option.any_some, Text.upper_beq_upper (hc.2 _ known) hn]

end Column

namespace Table

/-- A table finds by key what it finds by name. -/
theorem columnByKey?_upper {t : Table} (ht : ∀ c ∈ t.columns, c.IsAscii) {name : String}
    (hn : Text.IsAscii name) : t.columnByKey? (Text.upper name) = t.column? name :=
  List.find?_congr fun c hc => Column.hasKey_upper (ht c hc) hn

/-- A table finds the first column that is called by a name. -/
theorem column?_eq_some_iff {t : Table} {name : String} {c : Column} :
    t.column? name = some c ↔ ∃ front back, t.columns = front ++ c :: back ∧
      c.isCalled name = true ∧ ∀ d ∈ front, d.isCalled name = false := by
  rw [column?, List.find?_eq_some_iff_append]
  simp only [Bool.not_eq_eq_eq_not, Bool.not_true]
  constructor
  · rintro ⟨called, front, back, columns, others⟩
    exact ⟨front, back, columns, called, others⟩
  · rintro ⟨front, back, columns, called, others⟩
    exact ⟨called, front, back, columns, others⟩

end Table

namespace Schema

/-- A column that a schema finds by a name is the one that its table finds. -/
theorem column?_eq_bind {s : Schema} (plain : ∀ t ∈ s.tables, ∀ c ∈ t.columns, c.IsAscii)
    (table : String) {column : String} (ascii : Text.IsAscii column) :
    s.column? table column = (s.table? table).bind (·.column? column) :=
  Option.bind_congr fun t ht => Table.columnByKey?_upper (plain t (mem_of_table? ht)) ascii

/-- **Two ways to a column.**  After any additions to an empty schema in which the columns have
ASCII names, and for any name of a table and any ASCII name of a column, a column is found by its
key, by way of the indices of the schema, exactly when the table that goes by the name has a column
that is called so, up to the case of the letters A to Z.  It is the same column, the first that is
called so. -/
theorem column?_eq_of_ascii (additions : List Addition)
    (plain : ∀ t, .table t ∈ additions → ∀ c ∈ t.columns, c.IsAscii) (table column : String)
    (ascii : Text.IsAscii column) :
    let s := after additions
    let r := Registry.after additions
    s.column? table column = (s.table? table).bind (·.column? column) ∧
      r.column? table column = (r.table? table).bind (·.column? column) ∧
      ∀ c, s.column? table column = some c ↔ ∃ t front back, s.table? table = some t ∧
        t.columns = front ++ c :: back ∧ c.isCalled column = true ∧
        ∀ d ∈ front, d.isCalled column = false := by
  intro s r
  have mirrors : Mirrors s r := mirrors_after additions
  have found : s.column? table column = (s.table? table).bind (·.column? column) :=
    column?_eq_bind (fun t ht => plain t (mem_additions_of_mem_tables ht)) table ascii
  refine ⟨found, ?_, fun c => ?_⟩
  · rw [mirrors.column?_eq, mirrors.table?_eq, found]
  · rw [found, Option.bind_eq_some_iff]
    simp only [Table.column?_eq_some_iff, exists_and_left]

/-- A table that is replaced by one in which a column is known by another one's name. -/
def resold : List Addition :=
  [.table { name := "sales", columns := [{ name := "amount" }] },
    .table { name := "SALES", daxName := some "Facts", columns :=
      [{ name := "net", daxName := some "Amount" }, { name := "amount" }] }]

/-- The first of the two columns is found. -/
theorem column?_eq_of_ascii_resold :
    (∀ t, .table t ∈ resold → ∀ c ∈ t.columns, c.IsAscii) ∧ Text.IsAscii "AMOUNT" ∧
      (after resold).column? "facts" "AMOUNT" =
        ((after resold).table? "facts").bind (·.column? "AMOUNT") ∧
      (after resold).column? "facts" "AMOUNT" =
        some { name := "net", daxName := some "Amount" } := by
  have plain : ∀ t, .table t ∈ resold → ∀ c ∈ t.columns, c.IsAscii := by
    intro t ht c hc
    rw [resold, List.mem_cons, List.mem_singleton] at ht
    rcases ht with ht | ht
    · cases ht
      obtain rfl := List.mem_singleton.mp hc
      decide +kernel
    · cases ht
      rcases List.mem_cons.mp hc with rfl | hc
      · decide +kernel
      · obtain rfl := List.mem_singleton.mp hc
        decide +kernel
  have ascii : Text.IsAscii "AMOUNT" := by decide +kernel
  exact ⟨plain, ascii, (column?_eq_of_ascii resold plain "facts" "AMOUNT" ascii).1,
    by decide +kernel⟩

end Schema

end MeasureSql
