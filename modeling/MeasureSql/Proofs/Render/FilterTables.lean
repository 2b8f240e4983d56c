import MeasureSql.Proofs.Render.Frame

/-!
# The tables that filters speak of

A condition is filed under a key, in which the table and the column stand with a point between them.
The table is read back from the key, as what stands before the first point; so a table whose name
has a point is not read back whole, and the key of a column without a table gives none.

## Main definitions

* `FilterContext.keyStem` — with what the keys of a table begin.

## Main results

* `keyTable?_key_eq_some_iff` — what a key is read as.
* `mem_filterTables_iff` — the tables of the filters are those that the keys in force are read as.
-/

namespace MeasureSql

namespace FilterContext

/-- **With what the keys of a table begin**: its name in capitals, and the point. -/
def keyStem (table : String) : List Char :=
  (Text.upper table).toList ++ ['.']

theorem toList_key (table column : String) :
    (key table column).toList = keyStem table ++ (Text.upper column).toList := by
  simp [key, keyStem]

/-- Up to its first point a key is the name of its table up to the first point. -/
theorem takeWhile_keyStem_append (table : String) (rest : List Char) :
    (keyStem table ++ rest).takeWhile (· != '.') =
      (Text.upper table).toList.takeWhile (· != '.') := by
  rw [keyStem, List.append_assoc, List.takeWhile_append]
  split
  · next hwhole =>
    have hall := (List.takeWhile_prefix (· != '.')).eq_of_length hwhole
    simp [hall]
  · rfl

end FilterContext

namespace Rendering

variable {t : Target} {f : FilterContext} {table column found : String}

theorem takeWhile_toList_key (table column : String) :
    (FilterContext.key table column).toList.takeWhile (· != '.') =
      (Text.upper table).toList.takeWhile (· != '.') := by
  rw [FilterContext.toList_key, FilterContext.takeWhile_keyStem_append]

/-- A key is read as the capital form of its table up to the first point, if anything stands there.
The key is longer than that, since the point follows the table. -/
theorem keyTable?_key_eq_some_iff :
    keyTable? (FilterContext.key table column) = some found ↔
      (Text.upper table).toList.takeWhile (· != '.') ≠ [] ∧
        found = String.ofList ((Text.upper table).toList.takeWhile (· != '.')) := by
  have hshort : ((Text.upper table).toList.takeWhile (· != '.')).length <
      (FilterContext.key table column).toList.length := by
    have hle := (List.takeWhile_prefix (l := (Text.upper table).toList) (· != '.')).length_le
    simp only [FilterContext.key, String.toList_append, List.length_append, String.length_toList]
      at hle ⊢
    have hpoint : ".".length = 1 := rfl
    omega
  rw [keyTable?, takeWhile_toList_key, beq_false_of_ne hshort.ne, Bool.false_or]
  cases (Text.upper table).toList.takeWhile (· != '.') with
  | nil => simp
  | cons c cs => simp [eq_comm]

/-- The table of a key that is read as a table is not empty. -/
theorem keyTable?_of_key (h : keyTable? (FilterContext.key table column) = some found) :
    table ≠ "" ∧ found = String.ofList ((Text.upper table).toList.takeWhile (· != '.')) := by
  obtain ⟨hne, hfound⟩ := keyTable?_key_eq_some_iff.mp h
  refine ⟨?_, hfound⟩
  rintro rfl
  exact hne rfl

theorem takeWhile_eq_self_of_not_mem {c : Char} {cs : List Char} (h : c ∉ cs) :
    cs.takeWhile (· != c) = cs :=
  List.takeWhile_eq_self_iff.mpr fun _ hmem => bne_iff_ne.mpr fun heq => h (heq ▸ hmem)

/-- A table whose capital form is not empty and has no point is read back whole. -/
theorem keyTable?_key (column : String) (hne : Text.upper table ≠ "")
    (hpoint : '.' ∉ (Text.upper table).toList) :
    keyTable? (FilterContext.key table column) = some (Text.upper table) := by
  refine keyTable?_key_eq_some_iff.mpr ?_
  rw [takeWhile_eq_self_of_not_mem hpoint]
  exact ⟨fun hnil => hne (String.toList_eq_nil_iff.mp hnil), String.ofList_toList.symm⟩

/-- The tables of the filters are those that the keys of the conditions in force are read as. -/
theorem mem_filterTables_iff {name : String} :
    name ∈ t.filterTables f ↔
      ∃ entry ∈ f.effective, ∃ found, keyTable? entry.1 = some found ∧ t.keyName found = name := by
  simp only [Target.filterTables, mem_foldl_addNew, List.not_mem_nil, false_or, List.mem_map,
    List.mem_filterMap]
  constructor
  · rintro ⟨found, ⟨entry, hentry, hfound⟩, hname⟩
    exact ⟨entry, hentry, found, hfound, hname⟩
  · rintro ⟨entry, hentry, found, hfound, hname⟩
    exact ⟨found, ⟨entry, hentry, hfound⟩, hname⟩

end Rendering

end MeasureSql
