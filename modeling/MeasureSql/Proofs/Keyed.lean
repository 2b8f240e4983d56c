import Mathlib.Data.List.Nodup

/-!
# Lists with keys

A list is searched by the keys of its entries.  An entry is put into it in the place of the entries
with its key, or at the end when there are none; it is then found under its key, and nothing else
changes.

## Main results

* `Keyed.find?_replace`, `Keyed.find?_concat` — what is found after an entry was put in.
* `Keyed.find?_of_mem` — where keys are distinct, each entry is found.
-/

namespace MeasureSql.Keyed

variable {α : Type} (key : α → String) (x : α) {xs : List α}

/-- An entry takes the place of those with its key. -/
theorem map_replace : (xs.map fun y => if key y == key x then x else y).map key = xs.map key := by
  rw [List.map_map]
  refine List.map_congr_left fun y _ => ?_
  by_cases same : key y = key x
  · simp [same]
  · simp [same]

/-- **An entry in the place of others** is found under their key. -/
theorem find?_replace (there : (xs.find? (key · == key x)).isSome) (k : String) :
    (xs.map fun y => if key y == key x then x else y).find? (key · == k) =
      if k = key x then some x else xs.find? (key · == k) := by
  have replaced (y : α) : (key (if key y == key x then x else y) == k) = (key y == k) := by
    by_cases same : key y = key x
    · simp [same]
    · simp [same]
  rw [List.find?_map]
  simp only [Function.comp_def, replaced]
  by_cases own : k = key x
  · subst own
    obtain ⟨y, found⟩ := Option.isSome_iff_exists.mp there
    have same : key y = key x := by simpa using List.find?_some found
    simp [found, same]
  · rw [if_neg own]
    cases found : xs.find? (key · == k) with
    | none => rfl
    | some y =>
      have other : key y = k := by simpa using List.find?_some found
      simp [other, own]

/-- **An entry at the end** is found under its key when that is new. -/
theorem find?_concat (new : xs.find? (key · == key x) = none) (k : String) :
    (xs ++ [x]).find? (key · == k) = if k = key x then some x else xs.find? (key · == k) := by
  rw [List.find?_append, List.find?_singleton]
  by_cases own : k = key x
  · rw [own, new, Option.none_or, if_pos (beq_self_eq_true _), if_pos rfl]
  · rw [if_neg own, if_neg (by simpa using fun same => own same.symm), Option.or_none]

/-- Where keys are distinct, an entry is found by its key. -/
theorem find?_of_mem {x : α} (distinct : (xs.map key).Nodup) (hx : x ∈ xs) :
    xs.find? (key · == key x) = some x := by
  cases found : xs.find? (key · == key x) with
  | none => exact absurd (List.find?_eq_none.mp found x hx) (by simp)
  | some y =>
    have same : key y = key x := by simpa using List.find?_some found
    rw [List.inj_on_of_nodup_map distinct (List.mem_of_find?_eq_some found) hx same]

end MeasureSql.Keyed
