import MeasureSql.FilterContext

/-!
# The filters in force

What adding a condition does to the conditions in force: all that were in force stay so, and the new
one joins them, even when its column had been taken away.

A context may hold conditions of a key that was taken away, and then they come back into force with
the next condition of the key.  No change makes such a context from one that is intact.

## Main definitions

* `FilterContext.inForce` — the conditions in force, in the order of the `WHERE` clause.
* `FilterContext.IsInForce` — a condition in force, with its key.
* `FilterContext.Intact` — no key with a condition has been taken away.

## Main results

* `FilterContext.mem_inForce_add`, `FilterContext.mem_inForce_add_of_mem` — a condition that is
  added is in force, and those that were in force stay so.
* `FilterContext.exists_of_mem_addEntry` — no other conditions are added.
* `FilterContext.Intact.add`, `FilterContext.Intact.remove` — changes keep a context intact.
-/

namespace MeasureSql.FilterContext

variable {f : FilterContext} {table column condition c : String}

/-- The conditions in force. -/
def inForce (f : FilterContext) : List String :=
  f.effective.flatMap (·.2)

theorem whereClause_eq (f : FilterContext) : f.whereClause = " AND ".intercalate f.inForce := rfl

/-- A condition is in force when its key has it and was not taken away. -/
theorem mem_inForce : c ∈ f.inForce ↔ ∃ e ∈ f.entries, e.1 ∉ f.removed ∧ c ∈ e.2 := by
  simp [inForce, effective, and_assoc]

attribute [local simp] addEntry

/-- Entries keep their conditions when one is added. -/
theorem exists_mem_addEntry (k condition : String) {entries : List (String × List String)}
    {e : String × List String} (h : e ∈ entries) :
    ∃ e' ∈ addEntry k condition entries, e'.1 = e.1 ∧ ∀ c ∈ e.2, c ∈ e'.2 := by
  induction entries with
  | nil => cases h
  | cons head rest ih =>
    rw [addEntry]
    split
    · rcases List.mem_cons.mp h with rfl | h
      · exact ⟨_, List.mem_cons_self, rfl, fun c hc => List.mem_append_left _ hc⟩
      · exact ⟨e, List.mem_cons_of_mem _ h, rfl, fun c hc => hc⟩
    · rcases List.mem_cons.mp h with rfl | h
      · exact ⟨e, List.mem_cons_self, rfl, fun c hc => hc⟩
      · obtain ⟨e', he', hkey, hconditions⟩ := ih h
        exact ⟨e', List.mem_cons_of_mem _ he', hkey, hconditions⟩

/-- The key of a condition has it once it is added. -/
theorem exists_mem_addEntry_self (k condition : String) (entries : List (String × List String)) :
    ∃ e ∈ addEntry k condition entries, e.1 = k ∧ condition ∈ e.2 := by
  induction entries with
  | nil => exact ⟨(k, [condition]), by simp [addEntry], rfl, by simp⟩
  | cons head rest ih =>
    rw [addEntry]
    split
    · next hkey => exact ⟨_, List.mem_cons_self, by simpa using hkey, by simp⟩
    · obtain ⟨e, he, hkey, hcondition⟩ := ih
      exact ⟨e, List.mem_cons_of_mem _ he, hkey, hcondition⟩

/-- **Nothing but the condition is added**: what an entry has afterwards it had before. -/
theorem exists_of_mem_addEntry {k : String} {entries : List (String × List String)}
    {e : String × List String} (h : e ∈ addEntry k condition entries) (hc : c ∈ e.2) :
    (c = condition ∧ e.1 = k) ∨ ∃ e' ∈ entries, e'.1 = e.1 ∧ c ∈ e'.2 := by
  induction entries with
  | nil =>
    simp only [addEntry, List.mem_singleton] at h
    subst h
    exact .inl ⟨by simpa using hc, rfl⟩
  | cons head rest ih =>
    rw [addEntry] at h
    split at h
    · next hkey =>
      rcases List.mem_cons.mp h with rfl | h
      · rcases List.mem_append.mp hc with hc | hc
        · exact .inr ⟨head, List.mem_cons_self, rfl, hc⟩
        · exact .inl ⟨List.mem_singleton.mp hc, by simpa using hkey⟩
      · exact .inr ⟨e, List.mem_cons_of_mem _ h, rfl, hc⟩
    · rcases List.mem_cons.mp h with rfl | h
      · exact .inr ⟨e, List.mem_cons_self, rfl, hc⟩
      · rcases ih h with hnew | ⟨e', he', hkey, hcondition⟩
        · exact .inl hnew
        · exact .inr ⟨e', List.mem_cons_of_mem _ he', hkey, hcondition⟩

/-- **A condition that is added is in force.** -/
theorem mem_inForce_add (f : FilterContext) (table column condition : String) :
    condition ∈ (f.add table column condition).inForce := by
  obtain ⟨e, he, hkey, hcondition⟩ :=
    exists_mem_addEntry_self (key table column) condition f.entries
  exact mem_inForce.mpr ⟨e, he, by simp [add, hkey], hcondition⟩

/-- **What was in force stays in force** when a condition is added. -/
theorem mem_inForce_add_of_mem (h : c ∈ f.inForce) :
    c ∈ (f.add table column condition).inForce := by
  obtain ⟨e, he, hremoved, hc⟩ := mem_inForce.mp h
  obtain ⟨e', he', hkey, hconditions⟩ := exists_mem_addEntry (key table column) condition he
  exact mem_inForce.mpr ⟨e', he', by simp [add, hkey, hremoved], hconditions c hc⟩

/-! ## Intact contexts -/

/-- The condition is in force under the key. -/
def IsInForce (f : FilterContext) (k condition : String) : Prop :=
  ∃ e ∈ f.effective, e.1 = k ∧ condition ∈ e.2

/-- No key with a condition has been taken away. -/
def Intact (f : FilterContext) : Prop :=
  ∀ e ∈ f.entries, e.1 ∉ f.removed

/-- What an intact context holds is in force. -/
theorem Intact.isInForce_iff (h : Intact f) {k : String} :
    f.IsInForce k c ↔ ∃ e ∈ f.entries, e.1 = k ∧ c ∈ e.2 := by
  have hall : f.effective = f.entries := by
    rw [effective, List.filter_eq_self]
    intro e he
    simpa using h e he
  rw [IsInForce, hall]

theorem intact_empty : Intact .empty :=
  fun _ he => nomatch he

/-- The keys with conditions are those there were, and that of the new condition. -/
theorem key_of_mem_addEntry {k : String} {entries : List (String × List String)}
    {e : String × List String} (h : e ∈ addEntry k condition entries) :
    e.1 = k ∨ ∃ e' ∈ entries, e'.1 = e.1 := by
  induction entries with
  | nil => exact .inl (by rw [List.mem_singleton.mp h])
  | cons head rest ih =>
    rw [addEntry] at h
    split at h
    · rcases List.mem_cons.mp h with rfl | h
      · exact .inr ⟨head, List.mem_cons_self, rfl⟩
      · exact .inr ⟨e, List.mem_cons_of_mem _ h, rfl⟩
    · rcases List.mem_cons.mp h with rfl | h
      · exact .inr ⟨e, List.mem_cons_self, rfl⟩
      · exact (ih h).imp id fun ⟨e', he', hkey⟩ => ⟨e', List.mem_cons_of_mem _ he', hkey⟩

theorem Intact.add (h : Intact f) (table column condition : String) :
    Intact (f.add table column condition) := by
  intro e he hremoved
  have hold : e.1 ∈ f.removed ∧ e.1 ≠ key table column := by
    simpa [FilterContext.add] using hremoved
  rcases key_of_mem_addEntry he with hnew | ⟨e', he', hkey⟩
  · exact hold.2 hnew
  · exact h e' he' (hkey ▸ hold.1)

/-- Whatever takes away some keys with all their conditions keeps a context intact. -/
theorem Intact.remove (h : Intact f) {g : FilterContext} (p : String → Bool)
    (hentries : g.entries = f.entries.filter fun e => !p e.1)
    (hremoved : ∀ k ∈ g.removed, k ∈ f.removed ∨ p k = true) : Intact g := by
  intro e he hr
  rw [hentries, List.mem_filter] at he
  rcases hremoved e.1 hr with hbefore | hnow
  · exact h e he.1 hbefore
  · simp [hnow] at he

theorem removed_removeWhere (f : FilterContext) (p : String → Bool) {k : String}
    (hk : k ∈ (f.removeWhere p).removed) : k ∈ f.removed ∨ p k = true := by
  simp only [removeWhere, List.mem_append, List.mem_map, List.mem_filter] at hk
  rcases hk with hbefore | ⟨e, ⟨-, hnow⟩, rfl⟩
  · exact .inl hbefore
  · exact .inr hnow

theorem removed_removeColumn (f : FilterContext) (table column : String) {k : String}
    (hk : k ∈ (f.removeColumn table column).removed) :
    k ∈ f.removed ∨ (k == key table column) = true := by
  simpa [removeColumn] using hk

theorem Intact.removeWhere (h : Intact f) (p : String → Bool) : Intact (f.removeWhere p) :=
  h.remove p rfl fun _ => removed_removeWhere f p

theorem Intact.removeTable (h : Intact f) (table : String) : Intact (f.removeTable table) :=
  h.removeWhere (ofTable table)

theorem Intact.keepOnly (h : Intact f) (table : String) (columns : List String) :
    Intact (f.keepOnly table columns) :=
  h.removeWhere fun k => ofTable table k && !(columns.map (key table)).contains k

theorem Intact.removeColumn (h : Intact f) (table column : String) :
    Intact (f.removeColumn table column) :=
  h.remove (· == key table column) rfl fun _ => removed_removeColumn f table column

end MeasureSql.FilterContext
