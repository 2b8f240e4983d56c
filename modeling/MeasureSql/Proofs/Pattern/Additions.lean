import Mathlib.Data.List.Induction
import MeasureSql.Pattern.Library
import MeasureSql.Proofs.Keyed
import MeasureSql.Proofs.Text.Capitals

/-!
# Additions to a pattern library

A library is a map from names in capitals to patterns, with an order.  The last pattern of a name is
the one that counts; the name keeps the place at which it was first added, whatever its spelling and
whatever the category of the patterns that take its place.

The same library can be kept in a hash map, beside a list of the names in order.  Lookups go through
the map and listings through the list, and each addition keeps the two in step.

## Main definitions

* `PatternLibrary.after` — the library after some additions.
* `PatternLibrary.lastNamed?` — the last of some patterns with a name.
* `PatternLibrary.Index` — a library as a hash map and an order.
* `PatternLibrary.Mirrors` — an index holds a library.

## Main results

* `PatternLibrary.find?_add`, `PatternLibrary.names_add` — one addition.
* `PatternLibrary.Mirrors.add` — one addition to both.
* `PatternLibrary.last_write_wins` — lookups and listings after any additions.
-/

namespace MeasureSql

/-- The pattern under its name in capitals. -/
def Pattern.inCapitals (p : Pattern) : Pattern :=
  { p with name := Text.upper p.name }

@[simp]
theorem Pattern.name_inCapitals (p : Pattern) : p.inCapitals.name = Text.upper p.name := rfl

namespace PatternLibrary

/-- The library after additions to an empty one. -/
def after (ps : List Pattern) : PatternLibrary :=
  ps.foldl add empty

/-- The last of some patterns that has the name, in any spelling. -/
def lastNamed? (ps : List Pattern) (name : String) : Option Pattern :=
  (ps.reverse.find? fun p => Text.upper p.name == Text.upper name).map Pattern.inCapitals

/-- The names of some patterns in capitals. -/
def capitals (ps : List Pattern) : List String :=
  ps.map fun p => Text.upper p.name

theorem after_concat (ps : List Pattern) (p : Pattern) : after (ps ++ [p]) = (after ps).add p := by
  simp [after]

/-! ## One addition -/

variable (l : PatternLibrary) (p : Pattern)

/-- A name is listed when a pattern is found under it. -/
theorem mem_names_iff {k : String} :
    k ∈ l.names ↔ (l.patterns.find? (·.name == k)).isSome = true := by
  simp [names]

/-- A pattern that is added goes to the place of its name, or to the end. -/
theorem patterns_add :
    (l.add p).patterns =
      if Text.upper p.name ∈ l.names then
        l.patterns.map fun q => if q.name == p.inCapitals.name then p.inCapitals else q
      else l.patterns ++ [p.inCapitals] := by
  have found : l.patterns.any (·.name == Text.upper p.name) = true ↔
      Text.upper p.name ∈ l.names := by
    simp [names]
  by_cases there : Text.upper p.name ∈ l.names
  · rw [if_pos there, add, if_pos (found.mpr there)]
    rfl
  · rw [if_neg there, add, if_neg (mt found.mp there)]
    rfl

/-- **A pattern that is added** is found under its name in capitals, and nothing else changes. -/
theorem find?_add (k : String) :
    (l.add p).patterns.find? (·.name == k) =
      if k = Text.upper p.name then some p.inCapitals else l.patterns.find? (·.name == k) := by
  rw [patterns_add]
  split
  · next there =>
    exact Keyed.find?_replace Pattern.name p.inCapitals ((mem_names_iff l).mp there) k
  · next new =>
    refine Keyed.find?_concat Pattern.name p.inCapitals ?_ k
    exact Option.not_isSome_iff_eq_none.mp (mt (mem_names_iff l).mpr new)

/-- **A name that is new** is added at the end. -/
theorem names_add :
    (l.add p).names =
      if Text.upper p.name ∈ l.names then l.names else l.names ++ [Text.upper p.name] := by
  rw [names, patterns_add]
  split
  · exact Keyed.map_replace Pattern.name p.inCapitals
  · exact List.map_append

/-! ## Any additions -/

theorem lastNamed?_concat (ps : List Pattern) (name : String) :
    lastNamed? (ps ++ [p]) name =
      if Text.upper name = Text.upper p.name then some p.inCapitals else lastNamed? ps name := by
  rw [lastNamed?, List.reverse_concat, List.find?_cons]
  by_cases own : Text.upper name = Text.upper p.name
  · rw [own, beq_self_eq_true, if_pos rfl, Option.map_some]
  · have other : (Text.upper p.name == Text.upper name) = false :=
      beq_false_of_ne fun same => own same.symm
    rw [other, if_neg own, lastNamed?]

/-- **The last pattern of a name is found.** -/
theorem get?_after (ps : List Pattern) (name : String) :
    (after ps).get? name = lastNamed? ps name := by
  induction ps using List.reverseRecOn with
  | nil => rfl
  | append_singleton ps p ih =>
    rw [after_concat, get?, find?_add, lastNamed?_concat, ← ih]
    rfl

/-- The names are those that were added, in the order in which each was added first. -/
structure ListsFirst (names added : List String) : Prop where
  nodup : names.Nodup
  mem : ∀ name, name ∈ names ↔ name ∈ added
  order : names.Pairwise fun a b => added.idxOf a < added.idxOf b

theorem ListsFirst.concat {names added : List String} (h : ListsFirst names added) (name : String) :
    ListsFirst (if name ∈ names then names else names ++ [name]) (added ++ [name]) := by
  have kept : ∀ a ∈ names, (added ++ [name]).idxOf a = added.idxOf a := fun a ha => by
    rw [List.idxOf_append, if_pos ((h.mem a).mp ha)]
  have order : names.Pairwise fun a b => (added ++ [name]).idxOf a < (added ++ [name]).idxOf b :=
    h.order.imp_of_mem fun ha hb earlier => by rwa [kept _ ha, kept _ hb]
  by_cases there : name ∈ names
  · rw [if_pos there]
    refine ⟨h.nodup, fun a => ?_, order⟩
    rw [h.mem, List.mem_append, List.mem_singleton, iff_self_or]
    rintro rfl
    exact (h.mem a).mp there
  · rw [if_neg there]
    have new : name ∉ added := mt (h.mem name).mpr there
    refine ⟨?_, fun a => by simp [h.mem], ?_⟩
    · simpa [List.nodup_append] using ⟨h.nodup, fun a ha same => there (same ▸ ha)⟩
    · refine List.pairwise_append.mpr ⟨order, List.pairwise_singleton _ _, ?_⟩
      intro a ha b hb
      obtain rfl := List.mem_singleton.mp hb
      have last : (added ++ [b]).idxOf b = added.length := by
        rw [List.idxOf_append, if_neg new]
        simp
      rw [kept a ha, last]
      exact List.idxOf_lt_length_of_mem ((h.mem a).mp ha)

/-- **Each name is listed once**, at the place where it was added first. -/
theorem listsFirst_after (ps : List Pattern) : ListsFirst (after ps).names (capitals ps) := by
  induction ps using List.reverseRecOn with
  | nil => exact ⟨.nil, fun _ => Iff.rfl, .nil⟩
  | append_singleton ps p ih =>
    rw [after_concat, names_add, capitals, List.map_append]
    exact ih.concat (Text.upper p.name)

/-! ## Categories -/

/-- Every pattern has one category. -/
theorem perm_ofCategory : (PatternCategory.all.flatMap l.ofCategory).Perm l.patterns := by
  rw [List.perm_iff_count]
  intro p
  have each (c : PatternCategory) :
      (l.ofCategory c).count p = if p.category = c then l.patterns.count p else 0 := by
    by_cases own : p.category = c
    · rw [if_pos own, ofCategory, List.count_filter (by simpa using own)]
    · rw [if_neg own, List.count_eq_zero]
      exact fun mem => own (by simpa using (List.mem_filter.mp mem).2)
  rw [List.count_flatMap]
  cases category : p.category <;> simp [PatternCategory.all, each, category]

variable {l} in
/-- The names lead back to the patterns. -/
theorem filterMap_find?_names (distinct : l.names.Nodup) :
    l.names.filterMap (fun k => l.patterns.find? (·.name == k)) = l.patterns := by
  rw [names, List.filterMap_map]
  exact (List.filterMap_congr fun p hp => Keyed.find?_of_mem Pattern.name distinct hp).trans
    List.filterMap_some

/-! ## A hash map beside an order -/

/-- A library as a hash map of patterns by their names in capitals, and the names in order. -/
structure Index where
  patterns : Std.HashMap String Pattern := ∅
  order : List String := []

namespace Index

/-- Puts a pattern into the map, notes its name if it is new, and gives the pattern that stood
there. -/
def add (r : Index) (p : Pattern) : Option Pattern × Index :=
  let key := Text.upper p.name
  let previous := r.patterns[key]?
  (previous,
    { patterns := r.patterns.insert key p.inCapitals
      order := if previous.isNone then r.order ++ [key] else r.order })

/-- The index after additions to an empty one. -/
def after (ps : List Pattern) : Index :=
  ps.foldl (fun r p => (r.add p).2) {}

/-- The pattern of a function, by its name in any case. -/
def get? (r : Index) (function : String) : Option Pattern :=
  r.patterns[Text.upper function]?

/-- The number of patterns. -/
def size (r : Index) : Nat :=
  r.patterns.size

/-- The patterns of a category, in order. -/
def ofCategory (r : Index) (c : PatternCategory) : List Pattern :=
  (r.order.filterMap fun name => r.patterns[name]?).filter (·.category = c)

theorem after_concat (ps : List Pattern) (p : Pattern) :
    after (ps ++ [p]) = ((after ps).add p).2 := by
  simp [after]

end Index

/-- **An index mirrors a library**: it lists the same names and finds the same patterns, and has no
others. -/
structure Mirrors (l : PatternLibrary) (r : Index) : Prop where
  order : r.order = l.names
  found : ∀ k, r.patterns[k]? = l.patterns.find? (·.name == k)
  size : r.size = l.size

variable {l}

theorem length_names : l.names.length = l.size :=
  List.length_map _

namespace Mirrors

variable {r : Index}

/-- A name is listed when the map has a pattern for it. -/
theorem mem_names_iff (h : Mirrors l r) {k : String} : k ∈ l.names ↔ r.patterns[k]?.isSome := by
  rw [h.found, PatternLibrary.mem_names_iff]

/-- **One addition** to both. -/
theorem add (h : Mirrors l r) (p : Pattern) :
    (r.add p).1 = (l.getThenAdd p).1 ∧ Mirrors (l.add p) (r.add p).2 := by
  have new : r.patterns[Text.upper p.name]?.isNone ↔ ¬ Text.upper p.name ∈ l.names := by
    rw [h.mem_names_iff, Option.not_isSome_iff_eq_none, Option.isNone_iff_eq_none]
  refine ⟨h.found _, ?_, fun k => ?_, ?_⟩
  · rw [names_add, Index.add, h.order]
    by_cases there : Text.upper p.name ∈ l.names
    · rw [if_pos there]
      exact if_neg (mt new.mp (not_not_intro there))
    · rw [if_neg there]
      exact if_pos (new.mpr there)
  · rw [find?_add, Index.add, Std.HashMap.getElem?_insert, h.found]
    by_cases own : k = Text.upper p.name
    · simp [own]
    · have other : (Text.upper p.name == k) = false := beq_false_of_ne fun same => own same.symm
      rw [other, if_neg own]
      rfl
  · rw [← length_names, names_add, Index.size, Index.add, Std.HashMap.size_insert]
    have counted : r.patterns.size = l.names.length := h.size.trans length_names.symm
    by_cases there : Text.upper p.name ∈ l.names
    · rw [if_pos there, if_pos, counted]
      simpa using h.mem_names_iff.mp there
    · rw [if_neg there, if_neg, counted, List.length_append]
      · rfl
      · simpa using mt h.mem_names_iff.mpr there

/-- **Lookups through the map** find what a search finds. -/
theorem get?_eq (h : Mirrors l r) (name : String) : r.get? name = l.get? name :=
  h.found _

/-- **Listings through the order** list what is there. -/
theorem ofCategory_eq (h : Mirrors l r) (distinct : l.names.Nodup) (c : PatternCategory) :
    r.ofCategory c = l.ofCategory c := by
  simp only [Index.ofCategory, h.order, h.found]
  rw [filterMap_find?_names distinct, ofCategory]

end Mirrors

theorem mirrors_after (ps : List Pattern) : Mirrors (after ps) (Index.after ps) := by
  induction ps using List.reverseRecOn with
  | nil => exact ⟨rfl, fun _ => by simp [Index.after, after, empty], rfl⟩
  | append_singleton ps p ih =>
    rw [after_concat, Index.after_concat]
    exact (ih.add p).2

/-- **The last write wins, and the first one gives the place.**  After any additions to an empty
library, a name in any spelling leads to the last pattern that was added under it, which bears it in
capitals, and an addition gives that pattern as the one that it replaces.  Each name is listed once,
at the place where it was added first.  The patterns of a category are listed in that order, by the
categories that they have now, and each name is listed in one category.  A hash map beside a list of
the names answers all of this in the same way. -/
theorem last_write_wins (ps : List Pattern) :
    let l := after ps
    let r := Index.after ps
    (∀ name, l.get? name = lastNamed? ps name) ∧
      (∀ p, l.getThenAdd p = (lastNamed? ps p.name, after (ps ++ [p]))) ∧
      ListsFirst l.names (capitals ps) ∧
      l.size = l.names.length ∧
      (∀ c, l.ofCategory c = (l.names.filterMap (lastNamed? ps)).filter (·.category = c)) ∧
      (PatternCategory.all.flatMap fun c => (l.ofCategory c).map (·.name)).Perm l.names ∧
      (∀ name, r.get? name = l.get? name) ∧
      (∀ p, r.add p = (lastNamed? ps p.name, Index.after (ps ++ [p]))) ∧
      r.order = l.names ∧ r.size = l.size ∧ ∀ c, r.ofCategory c = l.ofCategory c := by
  intro l r
  have mirrors : Mirrors l r := mirrors_after ps
  have lists : ListsFirst l.names (capitals ps) := listsFirst_after ps
  refine ⟨get?_after ps, fun p => ?_, lists, length_names.symm, fun c => ?_, ?_, mirrors.get?_eq,
    fun p => ?_, mirrors.order, mirrors.size, mirrors.ofCategory_eq lists.nodup⟩
  · rw [getThenAdd, get?_after, after_concat]
  · have current : l.names.filterMap (lastNamed? ps) = l.patterns := by
      rw [← filterMap_find?_names lists.nodup]
      refine List.filterMap_congr fun name listed => ?_
      obtain ⟨p, -, rfl⟩ := List.mem_map.mp ((lists.mem name).mp listed)
      rw [← get?_after, get?, Text.upper_upper]
    rw [current, ofCategory]
  · rw [← List.map_flatMap]
    exact (perm_ofCategory l).map _
  · rw [Index.after_concat, ← get?_after]
    exact Prod.ext (mirrors.add p).1 rfl

/-- A pattern that takes another one's place keeps the place and not the category. -/
example :
    let l := after [⟨"sum", .math, "A", "", none, none, [], [], none, false, false, .simple⟩,
      ⟨"Len", .text, "B", "", none, none, [], [], none, false, false, .simple⟩,
      ⟨"SUM", .text, "C", "", none, none, [], [], none, false, false, .simple⟩]
    l.names = ["SUM", "LEN"] ∧ (l.ofCategory .text).map (·.template) = ["C", "B"] ∧
      l.ofCategory .math = [] := by
  decide +kernel

end PatternLibrary

end MeasureSql
