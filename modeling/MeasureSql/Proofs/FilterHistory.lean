import Mathlib.Data.List.Induction
import Mathlib.Data.List.Nodup
import MeasureSql.Proofs.FilterContext

/-!
# The history of a filter context

A filter context is what is left of the changes that were made to it.  Read from the changes alone,
the conditions in force are those that were added and that no later change took away.  They stand
under the keys of their columns, keys in the order in which their first condition left was added,
and so the conditions of a key.  A key that was taken away and is given a condition again stands
where the new condition was added.

## Main definitions

* `FilterContext.Change`, `FilterContext.after` — changes, and the filter context after some.
* `FilterContext.lasting` — the conditions that were added and not taken away later.
* `FilterContext.grouped` — conditions under their keys.

## Main results

* `FilterContext.recorded_apply`, `FilterContext.recorded_after` — one change, and a history.
* `FilterContext.effective_after` — the conditions in force are those that last, under their keys.
* `FilterContext.isInForce_apply`, `FilterContext.isInForce_foldl` — what is in force after changes
  of any intact context.
-/

namespace MeasureSql.FilterContext

/-! ## Changes -/

/-- A change of the conditions in force. -/
inductive Change where
  | add (table column condition : String)
  | removeColumn (table column : String)
  | removeTable (table : String)
  | keepOnly (table : String) (columns : List String)
  | reset
  deriving DecidableEq, Repr

/-- The filter context after a change. -/
def apply (f : FilterContext) : Change → FilterContext
  | .add table column condition => f.add table column condition
  | .removeColumn table column => f.removeColumn table column
  | .removeTable table => f.removeTable table
  | .keepOnly table columns => f.keepOnly table columns
  | .reset => .empty

/-- The filter context after changes to one without conditions. -/
def after (changes : List Change) : FilterContext :=
  changes.foldl apply .empty

theorem after_concat (changes : List Change) (change : Change) :
    after (changes ++ [change]) = (after changes).apply change := by
  simp [after]

namespace Change

/-- Does a change take away the conditions of a key? -/
def takesAway (k : String) : Change → Bool
  | .add _ _ _ => false
  | .removeColumn table column => k == key table column
  | .removeTable table => ofTable table k
  | .keepOnly table columns => ofTable table k && !(columns.map (key table)).contains k
  | .reset => true

/-- The condition that a change adds, with its key. -/
def added? : Change → Option (String × String)
  | .add table column condition => some (key table column, condition)
  | .removeColumn _ _ | .removeTable _ | .keepOnly _ _ | .reset => none

end Change

/-- **The conditions that last**, with their keys: those that were added and that no later change
took away. -/
def lasting : List Change → List (String × String)
  | [] => []
  | change :: later =>
    (change.added?.filter fun a => !later.any (·.takesAway a.1)).toList ++ lasting later

/-- A change takes some conditions away, and adds one after those that are left. -/
theorem lasting_concat (changes : List Change) (change : Change) :
    lasting (changes ++ [change]) =
      (lasting changes).filter (fun a => !change.takesAway a.1) ++ change.added?.toList := by
  induction changes with
  | nil => cases change <;> rfl
  | cons first changes ih =>
    rw [List.cons_append, lasting, lasting, ih, List.filter_append, List.append_assoc]
    congr 1
    cases first.added? with
    | none => rfl
    | some a =>
      by_cases before : changes.any (·.takesAway a.1)
      · simp [Option.filter, before]
      · by_cases now : change.takesAway a.1
        · simp [Option.filter, before, now]
        · simp [Option.filter, before, now]

/-! ## Conditions under their keys -/

/-- The keys of conditions, in the order of their first conditions. -/
def keysOf (conditions : List (String × String)) : List String :=
  (conditions.map (·.1)).eraseDups

/-- The conditions of one key. -/
def conditionsOf (k : String) (conditions : List (String × String)) : List String :=
  (conditions.filter (·.1 == k)).map (·.2)

/-- Conditions under their keys. -/
def grouped (conditions : List (String × String)) : List (String × List String) :=
  (keysOf conditions).map fun k => (k, conditionsOf k conditions)

section Keys

variable (conditions : List (String × String)) (k condition : String)

theorem eraseDups_concat (ks : List String) (k : String) :
    (ks ++ [k]).eraseDups = if k ∈ ks then ks.eraseDups else ks.eraseDups ++ [k] := by
  rw [List.eraseDups_append]
  by_cases known : k ∈ ks
  · simp [List.removeAll, known]
  · simp [List.removeAll, known, List.eraseDups_cons]

theorem mem_keysOf : k ∈ keysOf conditions ↔ ∃ condition, (k, condition) ∈ conditions := by
  simp [keysOf]

/-- A key is listed once. -/
theorem nodup_keysOf : (keysOf conditions).Nodup := by
  unfold keysOf
  induction conditions.map (·.1) using List.reverseRecOn with
  | nil => exact List.nodup_nil
  | append_singleton ks k ih =>
    rw [eraseDups_concat]
    by_cases known : k ∈ ks
    · rwa [if_pos known]
    · rw [if_neg known, List.nodup_append]
      refine ⟨ih, List.nodup_singleton k, ?_⟩
      intro a ha b hb same
      rw [List.mem_eraseDups] at ha
      rw [List.mem_singleton] at hb
      exact known (hb ▸ same ▸ ha)

/-- Keys that are left out leave the others in their places. -/
theorem keysOf_filter (p : String → Bool) :
    keysOf (conditions.filter fun a => p a.1) = (keysOf conditions).filter p := by
  have dedup : ∀ ks : List String, (ks.filter p).eraseDups = ks.eraseDups.filter p := by
    intro ks
    induction ks using List.reverseRecOn with
    | nil => rfl
    | append_singleton ks k ih =>
      rw [List.filter_append, eraseDups_concat]
      by_cases kept : p k
      · by_cases known : k ∈ ks
        · simp [kept, known, eraseDups_concat, ih]
        · simp [kept, known, eraseDups_concat, ih, List.filter_append]
      · by_cases known : k ∈ ks
        · simp [kept, known, ih]
        · simp [kept, known, ih, List.filter_append]
  rw [keysOf, keysOf, ← dedup, List.filter_map]
  rfl

/-- A key with a condition stays in its place, and a new one comes last. -/
theorem keysOf_concat :
    keysOf (conditions ++ [(k, condition)]) =
      if k ∈ keysOf conditions then keysOf conditions else keysOf conditions ++ [k] := by
  unfold keysOf
  rw [List.map_append, List.map_singleton, eraseDups_concat]
  simp only [List.mem_eraseDups]

theorem conditionsOf_concat (k' : String) :
    conditionsOf k' (conditions ++ [(k, condition)]) =
      if k = k' then conditionsOf k' conditions ++ [condition] else conditionsOf k' conditions := by
  by_cases same : k = k'
  · simp [conditionsOf, same]
  · simp [conditionsOf, same]

theorem conditionsOf_eq_nil (h : k ∉ keysOf conditions) : conditionsOf k conditions = [] := by
  rw [conditionsOf, List.map_eq_nil_iff, List.filter_eq_nil_iff]
  intro a ha same
  exact h ((mem_keysOf conditions k).mpr ⟨a.2, by rwa [← eq_of_beq same]⟩)

theorem conditionsOf_ne_nil (h : k ∈ keysOf conditions) : conditionsOf k conditions ≠ [] := by
  obtain ⟨condition, hc⟩ := (mem_keysOf conditions k).mp h
  intro none
  have held : condition ∈ conditionsOf k conditions := by simpa [conditionsOf] using hc
  rw [none] at held
  cases held

end Keys

section Grouped

variable (conditions : List (String × String))

theorem map_fst_grouped : (grouped conditions).map (·.1) = keysOf conditions := by
  rw [grouped, List.map_map]
  exact List.map_id _

theorem grouped_eq_nil_iff : grouped conditions = [] ↔ conditions = [] := by
  cases conditions with
  | nil => simp [grouped, keysOf]
  | cons a conditions => simp [grouped, keysOf, List.eraseDups_cons]

/-- Keys that are left out take their conditions with them. -/
theorem grouped_filter (p : String → Bool) :
    grouped (conditions.filter fun a => p a.1) = (grouped conditions).filter fun e => p e.1 := by
  rw [grouped, grouped, keysOf_filter, List.filter_map]
  refine List.map_congr_left ?_
  intro k hk
  have kept : p k = true := (List.mem_filter.mp hk).2
  have same : ∀ a : String × String, (a.1 == k && p a.1) = (a.1 == k) := by
    intro a
    by_cases own : a.1 = k
    · simp [own, kept]
    · simp [own]
  simp [conditionsOf, List.filter_filter, same]

/-- What adding a condition does to entries whose keys are different. -/
theorem addEntry_eq {entries : List (String × List String)} (different : (entries.map (·.1)).Nodup)
    (k condition : String) :
    addEntry k condition entries =
      if k ∈ entries.map (·.1) then
        entries.map fun e => if e.1 = k then (e.1, e.2 ++ [condition]) else e
      else entries ++ [(k, [condition])] := by
  induction entries with
  | nil => rfl
  | cons e entries ih =>
    rw [List.map_cons, List.nodup_cons] at different
    rw [addEntry]
    by_cases own : e.1 = k
    · have rest : entries.map (fun e => if e.1 = k then (e.1, e.2 ++ [condition]) else e) =
          entries := by
        refine (List.map_congr_left ?_).trans (List.map_id entries)
        intro e' he'
        have other : e'.1 ≠ k := by
          intro same
          exact different.1 (List.mem_map.mpr ⟨e', he', same.trans own.symm⟩)
        simp [other]
      simp [own, rest]
    · have other : ¬ k = e.1 := fun same => own same.symm
      by_cases known : k ∈ entries.map (·.1)
      · simp [own, known, ih different.2]
      · simp [own, other, known, ih different.2]

/-- **A condition that is added** joins those of its key. -/
theorem addEntry_grouped (k condition : String) :
    addEntry k condition (grouped conditions) = grouped (conditions ++ [(k, condition)]) := by
  have different : ((grouped conditions).map (·.1)).Nodup := by
    rw [map_fst_grouped]
    exact nodup_keysOf conditions
  rw [addEntry_eq different, map_fst_grouped]
  by_cases known : k ∈ keysOf conditions
  · rw [if_pos known, grouped, grouped, keysOf_concat, if_pos known, List.map_map]
    refine List.map_congr_left ?_
    intro k' _
    by_cases own : k' = k
    · simp [own, conditionsOf_concat]
    · have other : ¬ k = k' := fun same => own same.symm
      simp [own, other, conditionsOf_concat]
  · rw [if_neg known, grouped, grouped, keysOf_concat, if_neg known, List.map_append,
      List.map_singleton, conditionsOf_concat, conditionsOf_eq_nil conditions k known]
    congr 1
    · refine List.map_congr_left ?_
      intro k' hk'
      have other : ¬ k = k' := fun same => known (same ▸ hk')
      simp [other, conditionsOf_concat]
    · simp

end Grouped

/-! ## What is recorded -/

/-- A filter context holds some conditions under their keys, and no key with a condition has been
taken away. -/
structure Recorded (f : FilterContext) (conditions : List (String × String)) : Prop where
  entries : f.entries = grouped conditions
  held : Intact f

variable {f : FilterContext} {conditions : List (String × String)}

theorem recorded_empty : Recorded .empty [] where
  entries := rfl
  held := intact_empty

theorem Recorded.add (h : Recorded f conditions) (table column condition : String) :
    Recorded (f.add table column condition)
      (conditions ++ [(key table column, condition)]) where
  entries := by
    rw [FilterContext.add, h.entries, addEntry_grouped]
  held := h.held.add table column condition

/-- Whatever takes away some keys with all their conditions leaves the others. -/
theorem Recorded.remove (h : Recorded f conditions) {g : FilterContext} (p : String → Bool)
    (entries : g.entries = f.entries.filter fun e => !p e.1) (held : Intact g) :
    Recorded g (conditions.filter fun a => !p a.1) where
  entries := by
    rw [entries, h.entries, grouped_filter conditions fun k => !p k]
  held := held

theorem Recorded.removeWhere (h : Recorded f conditions) (p : String → Bool) :
    Recorded (f.removeWhere p) (conditions.filter fun a => !p a.1) :=
  h.remove p rfl (h.held.removeWhere p)

theorem Recorded.removeColumn (h : Recorded f conditions) (table column : String) :
    Recorded (f.removeColumn table column)
      (conditions.filter fun a => !(a.1 == key table column)) :=
  h.remove (· == key table column) rfl (h.held.removeColumn table column)

/-- **One change** of a filter context that holds some conditions. -/
theorem recorded_apply (h : Recorded f conditions) (change : Change) :
    Recorded (f.apply change)
      (conditions.filter (fun a => !change.takesAway a.1) ++ change.added?.toList) := by
  cases change with
  | add table column condition =>
    simpa [apply, Change.takesAway, Change.added?] using h.add table column condition
  | removeColumn table column =>
    simpa only [apply, Change.takesAway, Change.added?, Option.toList_none, List.append_nil] using
      h.removeColumn table column
  | removeTable table =>
    simpa only [apply, removeTable, Change.takesAway, Change.added?, Option.toList_none,
      List.append_nil] using h.removeWhere (ofTable table)
  | keepOnly table columns =>
    simpa only [apply, keepOnly, Change.takesAway, Change.added?, Option.toList_none,
      List.append_nil] using
      h.removeWhere fun k => ofTable table k && !(columns.map (key table)).contains k
  | reset =>
    simpa [apply, Change.takesAway, Change.added?] using recorded_empty

/-- **A history of changes** leaves the conditions that last. -/
theorem recorded_after (changes : List Change) : Recorded (after changes) (lasting changes) := by
  induction changes using List.reverseRecOn with
  | nil => exact recorded_empty
  | append_singleton changes change ih =>
    rw [after_concat, lasting_concat]
    exact recorded_apply ih change

/-- Nothing that is held has been taken away. -/
theorem Recorded.effective (h : Recorded f conditions) : f.effective = grouped conditions := by
  rw [← h.entries, FilterContext.effective, List.filter_eq_self]
  intro e he
  simpa using h.held e he

/-- **The conditions in force are those that last.**  After every history of changes they are those
that were added and that no later change took away, under their keys; the `WHERE` clause joins them
in that order, and no condition is in force exactly if none lasts.  Keys are different, each has a
condition, and none of them has been taken away. -/
theorem effective_after (changes : List Change) :
    (after changes).effective = grouped (lasting changes) ∧
      (after changes).whereClause =
        " AND ".intercalate ((grouped (lasting changes)).flatMap (·.2)) ∧
      ((after changes).isEmpty = true ↔ lasting changes = []) ∧
      ((after changes).entries.map (·.1)).Nodup ∧
      (∀ e ∈ (after changes).entries, e.2 ≠ []) ∧
      ∀ e ∈ (after changes).entries, e.1 ∉ (after changes).removed := by
  have h := recorded_after changes
  refine ⟨h.effective, ?_, ?_, ?_, ?_, h.held⟩
  · rw [whereClause, h.effective]
  · rw [isEmpty, h.effective, List.isEmpty_iff, grouped_eq_nil_iff]
  · rw [h.entries, map_fst_grouped]
    exact nodup_keysOf _
  · intro e he
    rw [h.entries, grouped, List.mem_map] at he
    obtain ⟨k, hk, rfl⟩ := he
    exact conditionsOf_ne_nil _ k hk

/-! ## Changes of intact contexts -/

/-- Changes keep a context intact. -/
theorem Intact.apply (h : Intact f) (change : Change) : Intact (f.apply change) := by
  cases change with
  | add table column condition => exact h.add table column condition
  | removeColumn table column => exact h.removeColumn table column
  | removeTable table => exact h.removeTable table
  | keepOnly table columns => exact h.keepOnly table columns
  | reset => exact intact_empty

theorem Intact.foldl (h : Intact f) (changes : List Change) :
    Intact (changes.foldl FilterContext.apply f) := by
  induction changes generalizing f with
  | nil => exact h
  | cons change changes ih => exact ih (h.apply change)

/-- The entries of an intact context under other keys than those taken away. -/
theorem isInForce_of_filter {g : FilterContext} (h : Intact f) (hg : Intact g) (p : String → Bool)
    (hentries : g.entries = f.entries.filter fun e => !p e.1) (k x : String) :
    g.IsInForce k x ↔ f.IsInForce k x ∧ p k = false := by
  rw [h.isInForce_iff, hg.isInForce_iff, hentries]
  constructor
  · rintro ⟨e, he, rfl, hx⟩
    obtain ⟨he, hp⟩ := List.mem_filter.mp he
    exact ⟨⟨e, he, rfl, hx⟩, by simpa using hp⟩
  · rintro ⟨⟨e, he, rfl, hx⟩, hp⟩
    exact ⟨e, List.mem_filter.mpr ⟨he, by simpa using hp⟩, rfl, hx⟩

/-- **One change**: what it takes away is no longer in force, and what it adds is. -/
theorem isInForce_apply (h : Intact f) (change : Change) (k x : String) :
    (f.apply change).IsInForce k x ↔
      f.IsInForce k x ∧ change.takesAway k = false ∨ change.added? = some (k, x) := by
  have hafter := h.apply change
  have hremoves : change.added? = none → (∀ p : String → Bool, (p k = change.takesAway k) →
      ((f.apply change).entries = f.entries.filter fun e => !p e.1) →
      ((f.apply change).IsInForce k x ↔
        f.IsInForce k x ∧ change.takesAway k = false ∨ change.added? = some (k, x))) := by
    intro hnone p hp hentries
    rw [isInForce_of_filter h hafter p hentries, hp, hnone]
    simp
  cases change with
  | add table column condition =>
    rw [h.isInForce_iff, hafter.isInForce_iff]
    constructor
    · rintro ⟨e, he, rfl, hx⟩
      rcases exists_of_mem_addEntry he hx with ⟨rfl, hkey⟩ | ⟨e', he', hkey, hx⟩
      · exact .inr (by rw [Change.added?, hkey])
      · exact .inl ⟨⟨e', he', hkey, hx⟩, rfl⟩
    · rintro (⟨⟨e, he, rfl, hx⟩, -⟩ | hadded)
      · obtain ⟨e', he', hkey, hconditions⟩ := exists_mem_addEntry (key table column) condition he
        exact ⟨e', he', hkey, hconditions x hx⟩
      · obtain ⟨rfl, rfl⟩ := Prod.mk.inj (Option.some.inj hadded)
        exact exists_mem_addEntry_self (key table column) condition f.entries
  | removeColumn table column => exact hremoves rfl (· == key table column) rfl rfl
  | removeTable table => exact hremoves rfl (ofTable table) rfl rfl
  | keepOnly table columns =>
    exact hremoves rfl (fun k => ofTable table k && !(columns.map (key table)).contains k) rfl rfl
  | reset =>
    refine hremoves rfl (fun _ => true) rfl ?_
    simp [apply, empty]

/-- **Changes that add nothing** leave in force what none of them takes away. -/
theorem isInForce_foldl (h : Intact f) {changes : List Change}
    (hnone : ∀ change ∈ changes, change.added? = none) (k x : String) :
    (changes.foldl apply f).IsInForce k x ↔
      f.IsInForce k x ∧ changes.any (·.takesAway k) = false := by
  induction changes generalizing f with
  | nil => simp
  | cons change changes ih =>
    obtain ⟨hfirst, hrest⟩ := List.forall_mem_cons.mp hnone
    rw [List.foldl_cons, ih (h.apply change) hrest, isInForce_apply h, hfirst]
    simp [and_assoc]

/-- A column that was taken away and is given a condition again stands after the others. -/
example :
    (after [.add "sales" "region" "a", .add "sales" "amount" "b", .removeColumn "Sales" "Region",
      .add "sales" "region" "c"]).effective =
      [("SALES.AMOUNT", ["b"]), ("SALES.REGION", ["c"])] := by
  decide +kernel

end MeasureSql.FilterContext
