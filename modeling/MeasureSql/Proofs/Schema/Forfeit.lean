import MeasureSql.Proofs.Schema.Lookup

/-!
# Names that no longer lead to a table

Several tables may claim one alias, and only the last of them is found by it.  When a table is
replaced its alias is given up, whoever claimed it last, so that a table may be left without the
alias by which it goes.  The aliases that are lost in this way can be told from the additions:
those of which the last that happened is that a table which goes by the alias was replaced by one
which does not.

## Main definitions

* `Schema.Replaces` — a table that is added takes the place of one with a given alias.
* `Schema.Forfeits` — additions after which nothing is found by an alias.

## Main results

* `Schema.lookup_aliases_addTable`, `Schema.forfeits_concat` — one table.
* `Schema.isSome_lookup_aliases_after` — the aliases in force after any additions.
* `Schema.isSome_table?_after_iff` — the names of tables by which a table is found.
-/

namespace MeasureSql

namespace Schema

variable {s : Schema} {t : Table} {a : String} {additions : List Addition}

/-! ## One table -/

/-- The table takes the place of one that goes by the alias. -/
def Replaces (s : Schema) (t : Table) (a : String) : Prop :=
  ∃ old, s.tableByKey? t.sqlKey = some old ∧ old.daxKey = a

instance (s : Schema) (t : Table) (a : String) : Decidable (s.Replaces t a) :=
  decidable_of_iff ((s.tableByKey? t.sqlKey).any (·.daxKey == a)) (by
    rw [Replaces, Option.any_eq_true]
    simp only [beq_iff_eq])

/-- **What a table that is added does to an alias**: it claims its own, and the alias of the table
in whose place it stands is given up. -/
theorem lookup_aliases_addTable (s : Schema) (t : Table) (a : String) :
    (s.addTable t).aliases.lookup a =
      if a = t.daxKey then some t.sqlKey
      else if s.Replaces t a then none else s.aliases.lookup a := by
  cases found : s.tableByKey? t.sqlKey with
  | none => simp [addTable, found, lookup_takeAlias, Replaces]
  | some old =>
    simp only [addTable, found, lookup_takeAlias, lookup_dropAlias, Replaces, Option.some.injEq,
      exists_eq_left', eq_comm (a := a)]

/-! ## Any additions -/

/-- A table that is there was added. -/
theorem mem_additions_of_mem_tables (ht : t ∈ (after additions).tables) :
    .table t ∈ additions := by
  induction additions using List.reverseRecOn generalizing t with
  | nil => cases ht
  | append_singleton additions x ih =>
    rw [after_concat] at ht
    cases x with
    | relationship r => exact List.mem_append_left _ (ih ht)
    | table u =>
      simp only [extend, addTable] at ht
      split at ht
      · obtain ⟨old, hold, rfl⟩ := List.mem_map.mp ht
        by_cases same : old.sqlKey = u.sqlKey
        · simp [same]
        · simpa [same] using .inl (ih hold)
      · rcases List.mem_append.mp ht with ht | ht
        · exact List.mem_append_left _ (ih ht)
        · simp_all

/-- **An alias is forfeited** when a table that goes by it is replaced by one that does not, and no
table that goes by it is added from then on. -/
def Forfeits (additions : List Addition) (a : String) : Prop :=
  ∃ before t later, additions = before ++ .table t :: later ∧ (after before).Replaces t a ∧
    t.daxKey ≠ a ∧ ∀ u, .table u ∈ later → u.daxKey ≠ a

/-- **One more addition** forfeits an alias, or leaves it forfeited. -/
theorem forfeits_concat (x : Addition) :
    Forfeits (additions ++ [x]) a ↔
      (∀ u, x = .table u → u.daxKey ≠ a) ∧
        ((∃ t, x = .table t ∧ (after additions).Replaces t a) ∨ Forfeits additions a) := by
  constructor
  · rintro ⟨before, t, later, split, replaces, other, unclaimed⟩
    obtain rfl | ⟨later, y, rfl⟩ := List.eq_nil_or_concat' later
    · obtain ⟨rfl, same⟩ := List.append_inj' split rfl
      obtain rfl : x = .table t := by simpa using same
      exact ⟨fun u hu => by cases hu; exact other, .inl ⟨t, rfl, replaces⟩⟩
    · rw [← List.cons_append, ← List.append_assoc] at split
      obtain ⟨rfl, same⟩ := List.append_inj' split rfl
      obtain rfl : x = y := by simpa using same
      refine ⟨fun u hu => unclaimed u (by simp [hu]), .inr ⟨before, t, later, rfl, replaces, other,
        fun u hu => unclaimed u (List.mem_append_left _ hu)⟩⟩
  · rintro ⟨other, ⟨t, rfl, replaces⟩ | ⟨before, t, later, rfl, replaces, different, unclaimed⟩⟩
    · exact ⟨additions, t, [], rfl, replaces, other t rfl, by simp⟩
    · refine ⟨before, t, later ++ [x], by simp, replaces, different, ?_⟩
      intro u hu
      rcases List.mem_append.mp hu with hu | hu
      · exact unclaimed u hu
      · exact other u (List.mem_singleton.mp hu).symm

/-- **The aliases in force** are those that some table claimed and that were not forfeited. -/
theorem isSome_lookup_aliases_after (additions : List Addition) (a : String) :
    ((after additions).aliases.lookup a).isSome = true ↔
      (∃ t, .table t ∈ additions ∧ t.daxKey = a) ∧ ¬ Forfeits additions a := by
  induction additions using List.reverseRecOn with
  | nil => simp [after, empty]
  | append_singleton additions x ih =>
    rw [after_concat, forfeits_concat]
    cases x with
    | relationship r =>
      rw [show ((after additions).extend (.relationship r)).aliases = (after additions).aliases
        from rfl, ih]
      simp
    | table t =>
      rw [show (after additions).extend (.table t) = (after additions).addTable t from rfl,
        lookup_aliases_addTable]
      by_cases own : a = t.daxKey
      · simp [own]
      · have other : t.daxKey ≠ a := fun same => own same.symm
        by_cases replaces : (after additions).Replaces t a
        · simp [own, other, replaces]
        · simp [own, other, replaces, ih]

/-- **The names by which a table is found.**  After any additions to an empty schema, a name of a
table that is there leads to some table exactly when it is the SQL name of a table, or when the
alias was not forfeited: the last that happened to it is not that a table which went by it was
replaced by one which does not. -/
theorem isSome_table?_after_iff (additions : List Addition) {t : Table}
    (ht : t ∈ (after additions).tables) {name : String}
    (called : Text.upper name = t.sqlKey ∨ Text.upper name = t.daxKey) :
    ((after additions).table? name).isSome = true ↔
      (∃ u ∈ (after additions).tables, u.sqlKey = Text.upper name) ∨
        ¬ Forfeits additions (Text.upper name) := by
  have built := built_after additions
  cases found : (after additions).tableByKey? (Text.upper name) with
  | some u =>
    have own : u.sqlKey = Text.upper name := by simpa using List.find?_some found
    simp only [table?, found, Option.some_or, Option.isSome_some, true_iff]
    exact .inl ⟨u, List.mem_of_find?_eq_some found, own⟩
  | none =>
    have foreign : ¬ ∃ u ∈ (after additions).tables, u.sqlKey = Text.upper name := by
      rintro ⟨u, hu, own⟩
      rw [← own, tableByKey?_eq_some built.nodup_keys hu] at found
      cases found
    have claimed : ∃ u, .table u ∈ additions ∧ u.daxKey = Text.upper name := by
      rcases called with own | known
      · exact absurd ⟨t, ht, own.symm⟩ foreign
      · exact ⟨t, mem_additions_of_mem_tables ht, known.symm⟩
    rw [or_iff_right foreign, ← and_iff_right claimed (b := ¬ _), ← isSome_lookup_aliases_after]
    simp only [table?, found, Option.none_or]
    cases owner : (after additions).aliases.lookup (Text.upper name) with
    | none => rfl
    | some k =>
      obtain ⟨u, hu, -⟩ := built.owned _ k owner
      simp [hu]

/-- Two tables claim one alias, and the one that claimed it last keeps it when it is replaced by one
that goes by it too. -/
theorem not_forfeits_shared_alias :
    let sales : Table := { name := "sales", daxName := some "Facts" }
    let returns : Table := { name := "returns", daxName := some "Facts" }
    let additions : List Addition := [.table sales, .table returns, .table returns]
    returns ∈ (after additions).tables ∧ Text.upper "facts" = returns.daxKey ∧
      (after additions).table? "facts" = some returns ∧
      ¬ Forfeits additions (Text.upper "facts") := by
  intro sales returns additions
  have there : returns ∈ (after additions).tables := by decide +kernel
  have called : Text.upper "facts" = returns.daxKey := by decide +kernel
  have found : (after additions).table? "facts" = some returns := by decide +kernel
  have foreign : ¬ ∃ u ∈ (after additions).tables, u.sqlKey = Text.upper "facts" := by
    decide +kernel
  refine ⟨there, called, found, ?_⟩
  have known := (isSome_table?_after_iff additions there (.inr called)).mp (by rw [found]; rfl)
  exact known.resolve_left foreign

-- the first table gives up an alias that is no longer its own, and the second one is lost by it
example :
    (after [.table { name := "sales", daxName := some "Facts" },
      .table { name := "returns", daxName := some "Facts" },
      .table { name := "sales", daxName := some "Sold" }]).table? "Facts" = none := by
  decide +kernel

end Schema

end MeasureSql
