import Mathlib.Data.List.Chain
import MeasureSql.Text.Alphabetic
import MeasureSql.Text.Blank

/-!
# Classes of characters

What a class says of the first 128 characters is checked one by one.  Above them a class is a list
of bounds, which is looked up at the few code points that matter.

## Main definitions

* `within` — a number lies between bounds.
* `wideBlanks` — the blanks above U+007F.

## Main results

* `of_isAscii` — what holds of the first 128 code points.
* `contains_eq_within`, `mem_wideBlanks` — lookups above them.
* `not_contains_of_isBlank` — a class without blanks, read off its bounds.
-/

namespace MeasureSql.Text

/-- **What holds of the first 128 code points** holds of their characters. -/
@[elab_as_elim]
theorem of_isAscii {P : Char → Prop} {c : Char} (hc : isAscii c = true)
    (h : ∀ n < 128, P (Char.ofNat n)) : P c := by
  have code : c.toNat < 128 := UInt32.lt_iff_toNat_lt.mp (of_decide_eq_true hc)
  simpa only [Char.ofNat_toNat] using h c.toNat code

/-- The character of a code point has that code point. -/
theorem toNat_ofNat {n : Nat} (valid : n.isValidChar) : (Char.ofNat n).toNat = n := by
  rw [Char.ofNat, dif_pos valid]
  rfl

theorem toNat_of_isAlpha {c : Char} (alpha : c.isAlpha = true) :
    65 ≤ c.toNat ∧ c.toNat ≤ 90 ∨ 97 ≤ c.toNat ∧ c.toNat ≤ 122 := by
  have letters : (decide (c.val ≥ 'A'.val ∧ c.val ≤ 'Z'.val) ||
      (decide (c.val ≥ 'a'.val) && decide (c.val ≤ 'z'.val))) = true := alpha
  simp only [Bool.or_eq_true, Bool.and_eq_true, decide_eq_true_eq, ge_iff_le,
    UInt32.le_iff_toNat_le] at letters
  exact letters

theorem toNat_of_isDigit {c : Char} (digit : c.isDigit = true) : 48 ≤ c.toNat ∧ c.toNat ≤ 57 := by
  simp only [Char.isDigit, Bool.and_eq_true, decide_eq_true_eq, ge_iff_le,
    UInt32.le_iff_toNat_le] at digit
  exact digit

/-- Whether a number lies in a set with the given bounds. -/
def within (bounds : List Nat) (n : Nat) : Bool :=
  bounds.foldl (fun inside b => if b ≤ n then !inside else inside) false

theorem contains_eq_within (s : CharSet) (c : Char) :
    s.contains c = within s.bounds.toList c.toNat := by
  simp [CharSet.contains, within, Array.foldl_toList]

/-- Bounds in order are read up to the number only. -/
theorem within_eq_takeWhile {bounds : List Nat} (ordered : bounds.IsChain (· < ·)) (n : Nat) :
    within bounds n = decide ((bounds.takeWhile (Nat.ble · n)).length % 2 = 1) := by
  have passed (inside : Bool) {bs : List Nat} (low : ∀ b ∈ bs, b ≤ n) :
      bs.foldl (fun inside b => if b ≤ n then !inside else inside) inside =
        (inside ^^ decide (bs.length % 2 = 1)) := by
    induction bs generalizing inside with
    | nil => simp
    | cons b bs ih =>
      obtain ⟨first, rest⟩ := List.forall_mem_cons.mp low
      rw [List.foldl_cons, if_pos first, ih _ rest, List.length_cons]
      rcases Nat.mod_two_eq_zero_or_one bs.length with even | odd
      · simp [Nat.add_mod, even]
      · simp [Nat.add_mod, odd]
  have beyond (inside : Bool) {bs : List Nat} (high : ∀ b ∈ bs, ¬ b ≤ n) :
      bs.foldl (fun inside b => if b ≤ n then !inside else inside) inside = inside := by
    induction bs with
    | nil => rfl
    | cons b bs ih =>
      obtain ⟨first, rest⟩ := List.forall_mem_cons.mp high
      rw [List.foldl_cons, if_neg first, ih rest]
  have low : ∀ b ∈ bounds.takeWhile (Nat.ble · n), b ≤ n := fun b mem =>
    Nat.ble_eq.mp (List.all_eq_true.mp List.all_takeWhile b mem)
  have high : ∀ b ∈ bounds.dropWhile (Nat.ble · n), ¬ b ≤ n := by
    have sorted := (List.isChain_iff_pairwise.mp ordered).sublist
      (List.dropWhile_suffix (Nat.ble · n)).sublist
    cases rest : bounds.dropWhile (Nat.ble · n) with
    | nil => simp
    | cons first others =>
      have stops : ¬ first ≤ n := fun le => by
        have first_not := List.head?_dropWhile_not (Nat.ble · n) bounds
        simp [rest, Nat.ble_eq.mpr le] at first_not
      rw [rest] at sorted
      exact List.forall_mem_cons.mpr ⟨stops, fun b mem le =>
        stops (le_trans (List.rel_of_pairwise_cons sorted mem).le le)⟩
  rw [within, ← List.takeWhile_append_dropWhile (p := (Nat.ble · n)) (l := bounds),
    List.foldl_append, passed _ low, beyond _ high]
  simp

/-- The blanks above U+007F. -/
def wideBlanks : List Nat :=
  [0x85, 0xA0, 0x1680, 0x2000, 0x2001, 0x2002, 0x2003, 0x2004, 0x2005, 0x2006, 0x2007, 0x2008,
    0x2009, 0x200A, 0x2028, 0x2029, 0x202F, 0x205F, 0x3000]

theorem mem_wideBlanks {c : Char} (blank : isBlank c = true) (high : isAscii c = false) :
    c.toNat ∈ wideBlanks := by
  have beyond : 128 ≤ c.toNat := by
    simpa [isAscii, UInt32.lt_iff_toNat_lt] using high
  simp only [isBlank, Bool.or_eq_true, Bool.and_eq_true, decide_eq_true_eq, beq_iff_eq] at blank
  simp only [wideBlanks, List.mem_cons, List.not_mem_nil, or_false]
  omega

/-- **A class without blanks**: an even number of its bounds lie at or below each of them. -/
theorem not_contains_of_isBlank {s : CharSet} (ordered : s.bounds.toList.IsChain (· < ·))
    (even : ∀ n ∈ wideBlanks, (s.bounds.toList.takeWhile (Nat.ble · n)).length % 2 = 0) {c : Char}
    (blank : isBlank c = true) (high : isAscii c = false) : s.contains c = false := by
  rw [contains_eq_within, within_eq_takeWhile ordered, even _ (mem_wideBlanks blank high)]
  rfl

/-- No blank is alphabetic. -/
theorem not_alphabetic_of_isBlank {c : Char} (blank : isBlank c = true)
    (high : isAscii c = false) : alphabeticSet.contains c = false :=
  not_contains_of_isBlank (by decide +kernel) (by decide +kernel) blank high

end MeasureSql.Text
