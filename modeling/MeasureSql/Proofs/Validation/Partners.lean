import Mathlib.Data.Set.Card

/-!
# Parentheses and their partners

A sequence of parentheses is in balance when it is made of pairs with such sequences between and
behind them.  In any sequence two parentheses are partners when what stands between them is in
balance.  Two numbers tell all that matters of a sequence: how many of its parentheses need one that
is opened before it, and how many it leaves open.

## Main definitions

* `WellNested` — sequences in balance.
* `Partners`, `IsPaired` — two parentheses that belong together.
* `demand`, `offer` — what a sequence needs and what it leaves.

## Main results

* `wellNested_iff` — a sequence is in balance when it needs nothing and leaves nothing.
* `isPaired_opening`, `isPaired_closing` — which parentheses have a partner.
* `ncard_unpaired` — a sequence leaves as many open as have no partner.
-/

namespace MeasureSql.Validation

/-- One of the two parentheses. -/
inductive Side where
  | opening
  | closing
  deriving DecidableEq, Repr

/-- A sequence of parentheses in balance. -/
inductive WellNested : List Side → Prop
  | nil : WellNested []
  | wrap {u v : List Side} (hu : WellNested u) (hv : WellNested v) :
      WellNested (.opening :: (u ++ .closing :: v))

/-- The parentheses at two places of a sequence belong together: what stands between them is in
balance. -/
inductive Partners : List Side → Nat → Nat → Prop
  | between (x : List Side) {u : List Side} (hu : WellNested u) (y : List Side) :
      Partners (x ++ .opening :: (u ++ .closing :: y)) x.length (x.length + (u.length + 1))

/-- Does the parenthesis at a place belong together with another one? -/
def IsPaired (w : List Side) (k : Nat) : Prop :=
  (∃ j, Partners w k j) ∨ ∃ i, Partners w i k

/-! ## What a sequence needs and leaves -/

/-- How many parentheses close one that was opened before the sequence. -/
def demand : List Side → Nat
  | [] => 0
  | .opening :: w => demand w - 1
  | .closing :: w => demand w + 1

/-- How many parentheses are open after the sequence. -/
def offer : List Side → Nat
  | [] => 0
  | .opening :: w => if demand w = 0 then offer w + 1 else offer w
  | .closing :: w => offer w

/-- What the second sequence needs is taken from what the first one leaves. -/
theorem demand_append (u v : List Side) :
    demand (u ++ v) = demand u + (demand v - offer u) := by
  induction u with
  | nil => simp [demand, offer]
  | cons s u ih =>
    cases s with
    | opening =>
      simp only [List.cons_append, demand, offer, ih]
      split <;> omega
    | closing =>
      simp only [List.cons_append, demand, offer, ih]
      omega

theorem offer_append (u v : List Side) : offer (u ++ v) = offer v + (offer u - demand v) := by
  induction u with
  | nil => simp [offer]
  | cons s u ih =>
    cases s with
    | opening =>
      simp only [List.cons_append, offer, ih, demand_append]
      split <;> split <;> omega
    | closing => simp only [List.cons_append, offer, ih]

/-- A sequence that needs more than `k` parentheses can be cut where the next one is needed. -/
theorem exists_of_lt_demand {w : List Side} {k : Nat} (h : k < demand w) :
    ∃ u v, w = u ++ .closing :: v ∧ demand u = k ∧ offer u = 0 := by
  induction w generalizing k with
  | nil => simp [demand] at h
  | cons s w ih =>
    cases s with
    | opening =>
      obtain ⟨u, v, rfl, needs, leaves⟩ := ih (k := k + 1) (by simp only [demand] at h; omega)
      exact ⟨.opening :: u, v, rfl, by simp [demand, needs], by simp [offer, needs, leaves]⟩
    | closing =>
      cases k with
      | zero => exact ⟨[], w, rfl, rfl, rfl⟩
      | succ k =>
        obtain ⟨u, v, rfl, needs, leaves⟩ := ih (k := k) (by simp only [demand] at h; omega)
        exact ⟨.closing :: u, v, rfl, by simp [demand, needs], by simp [offer, leaves]⟩

/-- A sequence that leaves a parenthesis open can be cut where the last one is opened. -/
theorem exists_of_offer_pos {w : List Side} (h : 0 < offer w) :
    ∃ u v, w = u ++ .opening :: v ∧ demand v = 0 ∧ offer v = 0 := by
  induction w with
  | nil => simp [offer] at h
  | cons s w ih =>
    by_cases later : 0 < offer w
    · obtain ⟨u, v, rfl, needs, leaves⟩ := ih later
      exact ⟨s :: u, v, rfl, needs, leaves⟩
    · have none_left : offer w = 0 := by omega
      cases s with
      | opening =>
        have needs : demand w = 0 := by
          by_contra needed
          simp [offer, needed, none_left] at h
        exact ⟨[], w, rfl, needs, none_left⟩
      | closing => simp [offer, none_left] at h

/-! ## Balance -/

theorem WellNested.demand_offer {w : List Side} (h : WellNested w) :
    demand w = 0 ∧ offer w = 0 := by
  induction h with
  | nil => exact ⟨rfl, rfl⟩
  | wrap hu hv ihu ihv => simp [demand, offer, demand_append, offer_append, ihu, ihv]

theorem wellNested_of_demand_offer {w : List Side} (needs : demand w = 0) (leaves : offer w = 0) :
    WellNested w := by
  obtain ⟨n, hn⟩ : ∃ n, w.length = n := ⟨_, rfl⟩
  induction n using Nat.strongRecOn generalizing w with
  | _ n ih =>
    obtain _ | ⟨_ | _, w⟩ := w
    · exact .nil
    · -- the parenthesis that is opened first is closed somewhere
      have closed : 0 < demand w := by
        by_contra never
        have zero : demand w = 0 := by omega
        simp [offer, zero] at leaves
      obtain ⟨u, v, rfl, needsU, leavesU⟩ := exists_of_lt_demand closed
      simp only [demand, demand_append, needsU, leavesU] at needs
      simp only [offer, demand_append, offer_append, needsU, leavesU, demand] at leaves
      have leavesV : offer v = 0 := by
        split at leaves <;> omega
      simp only [List.length_cons, List.length_append] at hn
      exact .wrap (ih _ (by omega) needsU leavesU rfl) (ih _ (by omega) (by omega) leavesV rfl)
    · simp [demand] at needs

/-- **A sequence is in balance** exactly when it needs nothing and leaves nothing. -/
theorem wellNested_iff {w : List Side} : WellNested w ↔ demand w = 0 ∧ offer w = 0 :=
  ⟨WellNested.demand_offer, fun h => wellNested_of_demand_offer h.1 h.2⟩

instance : DecidablePred WellNested := fun _ => decidable_of_iff _ wellNested_iff.symm

/-! ## Partners -/

theorem partners_opening {x v : List Side} :
    (∃ j, Partners (x ++ .opening :: v) x.length j) ↔ 0 < demand v := by
  constructor
  · rintro ⟨j, h⟩
    generalize hw : x ++ .opening :: v = w at h
    generalize hi : x.length = i at h
    obtain ⟨x', hu, y⟩ := h
    obtain ⟨-, same⟩ := List.append_inj hw hi
    obtain rfl := (List.cons.inj same).2
    simp [demand_append, demand, hu.demand_offer]
  · intro closed
    obtain ⟨u, y, rfl, needs, leaves⟩ := exists_of_lt_demand closed
    exact ⟨_, .between x (wellNested_of_demand_offer needs leaves) y⟩

theorem partners_closing {x v : List Side} :
    (∃ i, Partners (x ++ .closing :: v) i x.length) ↔ 0 < offer x := by
  constructor
  · rintro ⟨i, h⟩
    generalize hw : x ++ .closing :: v = w at h
    generalize hj : x.length = j at h
    obtain ⟨x', hu, y⟩ := h
    rw [← List.cons_append, ← List.append_assoc] at hw
    obtain ⟨rfl, -⟩ := List.append_inj hw (by simp [hj])
    simp [offer_append, offer, demand, hu.demand_offer]
  · intro open_
    obtain ⟨x', u, rfl, needs, leaves⟩ := exists_of_offer_pos open_
    have nested := Partners.between x' (wellNested_of_demand_offer needs leaves) v
    exact ⟨x'.length, by simpa using nested⟩

theorem Partners.opens {w : List Side} {i j : Nat} (h : Partners w i j) :
    w[i]? = some .opening := by
  obtain ⟨x, -, y⟩ := h
  simp

theorem Partners.closes {w : List Side} {i j : Nat} (h : Partners w i j) :
    w[j]? = some .closing := by
  obtain ⟨x, hu, y⟩ := h
  simp

/-- **A parenthesis that opens** has a partner when what follows closes it. -/
theorem isPaired_opening {x v : List Side} :
    IsPaired (x ++ .opening :: v) x.length ↔ 0 < demand v := by
  rw [← partners_opening (x := x), IsPaired, or_iff_left]
  rintro ⟨i, h⟩
  simpa using h.closes

/-- **A parenthesis that closes** has a partner when one is left open before it. -/
theorem isPaired_closing {x v : List Side} :
    IsPaired (x ++ .closing :: v) x.length ↔ 0 < offer x := by
  rw [← partners_closing (v := v), IsPaired, or_iff_right]
  rintro ⟨j, h⟩
  simpa using h.opens

/-- The places of the parentheses that open and have no partner. -/
def unpaired (w : List Side) : Set Nat :=
  {k | w[k]? = some .opening ∧ ¬ IsPaired w k}

theorem eq_append_of_getElem? {w : List Side} {k : Nat} {s : Side} (h : w[k]? = some s) :
    ∃ x v, w = x ++ s :: v ∧ x.length = k := by
  obtain ⟨inside, rfl⟩ := List.getElem?_eq_some_iff.mp h
  exact ⟨w.take k, w.drop (k + 1), by simp, by simp; omega⟩

/-- What opens without a partner does so whatever stands before it. -/
theorem mem_unpaired_iff {w : List Side} {k : Nat} :
    k ∈ unpaired w ↔ ∃ x v, w = x ++ .opening :: v ∧ x.length = k ∧ demand v = 0 := by
  constructor
  · rintro ⟨opens, single⟩
    obtain ⟨x, v, rfl, rfl⟩ := eq_append_of_getElem? opens
    rw [isPaired_opening] at single
    exact ⟨x, v, rfl, rfl, by omega⟩
  · rintro ⟨x, v, rfl, rfl, never⟩
    refine ⟨by simp, ?_⟩
    rw [isPaired_opening]
    omega

theorem succ_mem_unpaired {s : Side} {w : List Side} {k : Nat} :
    k + 1 ∈ unpaired (s :: w) ↔ k ∈ unpaired w := by
  simp only [mem_unpaired_iff]
  constructor
  · rintro ⟨_ | ⟨_, x⟩, v, same, len, never⟩
    · simp at len
    · exact ⟨x, v, (List.cons.inj same).2, by simpa using len, never⟩
  · rintro ⟨x, v, rfl, rfl, never⟩
    exact ⟨s :: x, v, rfl, rfl, never⟩

theorem zero_mem_unpaired {s : Side} {w : List Side} :
    0 ∈ unpaired (s :: w) ↔ s = .opening ∧ demand w = 0 := by
  rw [mem_unpaired_iff]
  constructor
  · rintro ⟨x, v, same, len, never⟩
    obtain rfl := List.length_eq_zero_iff.mp len
    obtain ⟨rfl, rfl⟩ := List.cons.inj same
    exact ⟨rfl, never⟩
  · rintro ⟨rfl, never⟩
    exact ⟨[], w, rfl, rfl, never⟩

theorem finite_unpaired (w : List Side) : (unpaired w).Finite :=
  (Set.finite_lt_nat w.length).subset fun _ h => (List.getElem?_eq_some_iff.mp h.1).1

/-- **A sequence leaves as many parentheses open** as it has that open without a partner. -/
theorem ncard_unpaired (w : List Side) : (unpaired w).ncard = offer w := by
  induction w with
  | nil => simp [unpaired, offer]
  | cons s w ih =>
    have tail : (Nat.succ '' unpaired w).ncard = offer w := by
      rw [Set.ncard_image_of_injective _ Nat.succ_injective, ih]
    by_cases single : s = .opening ∧ demand w = 0
    · have split : unpaired (s :: w) = insert 0 (Nat.succ '' unpaired w) := by
        ext k
        cases k with
        | zero => simp [zero_mem_unpaired, single]
        | succ k => simp [succ_mem_unpaired]
      obtain ⟨rfl, never⟩ := single
      rw [split, Set.ncard_insert_of_notMem (by simp) ((finite_unpaired w).image _), tail]
      simp [offer, never]
    · have split : unpaired (s :: w) = Nat.succ '' unpaired w := by
        ext k
        cases k with
        | zero => simp [zero_mem_unpaired, single]
        | succ k => simp [succ_mem_unpaired]
      rw [split, tail]
      cases s with
      | opening => simp [offer, show demand w ≠ 0 by simpa using single]
      | closing => simp [offer]

/-- A parenthesis that closes without a partner needs one before the sequence. -/
theorem demand_pos_of_stray {w : List Side} {k : Nat} (closes : w[k]? = some .closing)
    (single : ¬ IsPaired w k) : 0 < demand w := by
  obtain ⟨x, v, rfl, rfl⟩ := eq_append_of_getElem? closes
  rw [isPaired_closing] at single
  rw [demand_append, demand]
  omega

/-- Behind a sequence that leaves nothing open, a parenthesis that closes has no partner. -/
theorem stray_of_offer_eq_zero {x v : List Side} (leaves : offer x = 0) :
    ¬ IsPaired (x ++ .closing :: v) x.length := by
  rw [isPaired_closing]
  omega

/-- In a sequence that needs nothing, a parenthesis that closes has its partner, whatever comes
behind the sequence. -/
theorem isPaired_of_demand_eq_zero {x y : List Side} (needs : demand x = 0) {k : Nat}
    (closes : x[k]? = some .closing) : IsPaired (x ++ y) k := by
  obtain ⟨u, v, rfl, rfl⟩ := eq_append_of_getElem? closes
  rw [demand_append, demand] at needs
  rw [List.append_assoc, List.cons_append, isPaired_closing]
  omega

end MeasureSql.Validation
