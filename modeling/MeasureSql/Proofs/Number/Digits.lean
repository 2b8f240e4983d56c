import Mathlib.Algebra.Group.Int.Defs
import Mathlib.Algebra.Group.Nat.Defs
import MeasureSql.Dax.Spelling

/-!
# Digits and their value

The digits of a number have its value, and a whole number of the signed 64-bit range is read back
from its digits.

## Main results

* `digitsValue_append`, `digitsValue_toDigits` — the value of digits.
* `readInt64?_digits`, `Dax.readIntegerLiteral?_toDigits` — whole numbers read back.
-/

namespace MeasureSql

theorem digitsValue_eq_ofDigitChars (cs : List Char) :
    digitsValue cs = Nat.ofDigitChars 10 cs 0 := rfl

/-- **The value of digits** after other ones. -/
theorem digitsValue_append (cs ds : List Char) :
    digitsValue (cs ++ ds) = digitsValue cs * 10 ^ ds.length + digitsValue ds := by
  simp only [digitsValue_eq_ofDigitChars]
  rw [Nat.ofDigitChars_append, Nat.ofDigitChars_eq_ofDigitChars_zero, Nat.mul_comm]

/-- Zeros have no value. -/
theorem digitsValue_zeros (n : Nat) : digitsValue (List.replicate n '0') = 0 := by
  rw [digitsValue_eq_ofDigitChars, Nat.ofDigitChars_replicate_zero, Nat.mul_zero]

/-- **The digits of a number have its value.** -/
theorem digitsValue_toDigits (n : Nat) : digitsValue (Nat.toDigits 10 n) = n :=
  Nat.ofDigitChars_ten_toDigits

theorem isDigit_of_mem_toDigits {n : Nat} {c : Char} (h : c ∈ Nat.toDigits 10 n) :
    c.isDigit = true :=
  Nat.isDigit_of_mem_toDigits (by decide) (by decide) h

/-- A number that is not negative is written as its digits. -/
theorem toString_of_nonneg {n : Int} (nonnegative : 0 ≤ n) :
    toString n = String.ofList (Nat.toDigits 10 n.toNat) := by
  have whole : toString n = n.repr := rfl
  rw [whole, Int.repr_eq_if, if_pos nonnegative, Nat.repr]

/-- What begins with a digit has no sign. -/
theorem splitSign_of_digit {c : Char} {cs : List Char} (digit : c.isDigit = true) :
    splitSign (c :: cs) = (false, c :: cs) := by
  have other : ∀ d, d.isDigit = false → c ≠ d := by
    rintro d no rfl
    cases digit.symm.trans no
  unfold splitSign
  split
  · next h => exact absurd (List.cons.inj h).1 (other '+' (by decide))
  · next h => exact absurd (List.cons.inj h).1 (other '-' (by decide))
  · rfl

/-- What begins with a digit is no negative number. -/
theorem readInt64?_of_digit {c : Char} {cs : List Char} (digit : c.isDigit = true) {n : Int}
    (h : readInt64? (c :: cs) = some n) : 0 ≤ n ∧ n < 2 ^ 63 := by
  obtain ⟨read, range⟩ := Option.filter_eq_some_iff.mp h
  simp only [Bool.and_eq_true, decide_eq_true_eq] at range
  rw [readInt?, splitSign_of_digit digit] at read
  dsimp only at read
  split at read
  · cases read
  · cases read
    exact ⟨Int.natCast_nonneg _, range.2⟩

/-- **A whole number is read from its digits**, unless it needs more than 64 bits. -/
theorem readInt64?_digits {cs : List Char} (nonempty : cs ≠ [])
    (digits : ∀ c ∈ cs, c.isDigit = true) :
    readInt64? cs = if digitsValue cs < 2 ^ 63 then some (digitsValue cs : Int) else none := by
  have all : cs.all Char.isDigit = true := List.all_eq_true.mpr digits
  have signless : splitSign cs = (false, cs) := by
    obtain _ | ⟨c, cs⟩ := cs
    · rfl
    · exact splitSign_of_digit (digits c List.mem_cons_self)
  rw [readInt64?, readInt?, signless]
  simp only [all, nonempty, List.isEmpty_iff, Bool.not_true, Bool.or_false, if_false,
    Bool.false_eq_true]
  split
  · next fits =>
    have inRange : (-0x8000000000000000 ≤ (digitsValue cs : Int) &&
        (digitsValue cs : Int) < 0x8000000000000000) = true := by
      simp only [Bool.and_eq_true, decide_eq_true_eq]
      omega
    rw [Option.filter_some, if_pos inRange]
  · next large =>
    have outOfRange : ¬(-0x8000000000000000 ≤ (digitsValue cs : Int) &&
        (digitsValue cs : Int) < 0x8000000000000000) = true := by
      simp only [Bool.and_eq_true, decide_eq_true_eq, not_and]
      omega
    rw [Option.filter_some, if_neg outOfRange]

namespace Dax

/-- No digit is the mark of an exponent. -/
theorem any_exponent_digits {cs : List Char} (digits : ∀ c ∈ cs, c.isDigit = true) :
    cs.any (fun c => c == 'e' || c == 'E') = false := by
  refine List.any_eq_false.mpr fun c hc mark => ?_
  simp only [Bool.or_eq_true, beq_iff_eq] at mark
  have digit := digits c hc
  rcases mark with rfl | rfl
  · exact absurd digit (by decide)
  · exact absurd digit (by decide)

/-- **A literal whole number is read from its digits.** -/
theorem readIntegerLiteral?_toDigits {n : Nat} (fits : n < 2 ^ 63) :
    readIntegerLiteral? (String.ofList (Nat.toDigits 10 n)) = some (.integer n) := by
  have digits : ∀ c ∈ Nat.toDigits 10 n, c.isDigit = true := fun c => isDigit_of_mem_toDigits
  have read : readInt64? (Nat.toDigits 10 n) = some (n : Int) := by
    rw [readInt64?_digits Nat.toDigits_ne_nil digits, digitsValue_toDigits, if_pos fits]
  simp [readIntegerLiteral?, any_exponent_digits digits, read]

end Dax

end MeasureSql
