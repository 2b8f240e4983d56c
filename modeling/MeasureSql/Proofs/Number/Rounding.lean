import Mathlib.Algebra.Order.Field.Power
import Mathlib.Data.Rat.Cast.Order
import Mathlib.Tactic.FieldSimp
import Mathlib.Tactic.Linarith
import Mathlib.Tactic.NormNum
import Mathlib.Tactic.Positivity
import Mathlib.Tactic.Ring
import MeasureSql.Number.Shortest

/-!
# Rounding to doubles

The values between the midpoints to the two neighbours of a double are rounded to it.  Numbers are
compared as rational numbers: a value has one exponent at which its mantissa has 53 bits, which is
found from the logarithms of numerator and denominator, and the mantissa is rounded to the nearest
whole number there.

## Main definitions

* `Double.Ratio.value` — a quotient as a rational number.
* `Double.Canonical` — the mantissas and exponents of the format.

## Main results

* `Double.roundHalfEven_eq` — the nearest whole number.
* `Double.exponentFor_eq` — the exponent of a value.
* `Double.ofRatio_of_holds` — the values of a rounding interval are rounded to its number.
* `Double.canonical_of_ofRatio` — what is rounded has the canonical form.
-/

namespace MeasureSql.Double

/-! ## Quotients -/

/-- A quotient as a rational number. -/
def Ratio.value (r : Ratio) : ℚ :=
  r.num / r.den

/-- A power stands over or under the bar. -/
theorem Ratio.value_power (base n : Nat) (e : Int) :
    Ratio.value (if 0 ≤ e then ⟨n * Nat.pow base e.toNat, 1⟩ else ⟨n, Nat.pow base (-e).toNat⟩) =
      n * (base : ℚ) ^ e := by
  unfold Ratio.value
  split
  · next nonneg =>
    obtain ⟨k, rfl⟩ := Int.eq_ofNat_of_zero_le nonneg
    simp
  · next negative =>
    obtain ⟨k, hk⟩ := Int.eq_ofNat_of_zero_le (show 0 ≤ -e by omega)
    obtain rfl : e = -k := by omega
    simp [div_eq_mul_inv]

theorem Ratio.value_ofBinary (n : Nat) (e : Int) : (Ratio.ofBinary n e).value = n * 2 ^ e :=
  Ratio.value_power 2 n e

theorem Ratio.value_ofDecimal (n : Nat) (e : Int) : (Ratio.ofDecimal n e).value = n * 10 ^ e :=
  Ratio.value_power 10 n e

theorem Ratio.den_ofBinary (n : Nat) (e : Int) : 0 < (Ratio.ofBinary n e).den := by
  unfold Ratio.ofBinary
  split <;> simp

theorem Ratio.den_ofDecimal (n : Nat) (e : Int) : 0 < (Ratio.ofDecimal n e).den := by
  unfold Ratio.ofDecimal
  split <;> simp

theorem Ratio.le_iff {a b : Ratio} (ha : 0 < a.den) (hb : 0 < b.den) :
    a.le b = true ↔ a.value ≤ b.value := by
  have ha' : (0 : ℚ) < a.den := by exact_mod_cast ha
  have hb' : (0 : ℚ) < b.den := by exact_mod_cast hb
  rw [Ratio.le, decide_eq_true_iff, Ratio.value, Ratio.value, div_le_div_iff₀ ha' hb']
  exact_mod_cast Iff.rfl

theorem Ratio.lt_iff {a b : Ratio} (ha : 0 < a.den) (hb : 0 < b.den) :
    a.lt b = true ↔ a.value < b.value := by
  have ha' : (0 : ℚ) < a.den := by exact_mod_cast ha
  have hb' : (0 : ℚ) < b.den := by exact_mod_cast hb
  rw [Ratio.lt, decide_eq_true_iff, Ratio.value, Ratio.value, div_lt_div_iff₀ ha' hb']
  exact_mod_cast Iff.rfl

/-! ## The nearest whole number -/

/-- **The nearest whole number** is found; at the same distance from two it is the even one. -/
theorem roundHalfEven_eq {n d m : Nat} (hd : 0 < d) (low : 2 * (m * d) ≤ 2 * n + d)
    (high : 2 * n ≤ 2 * (m * d) + d)
    (tie : 2 * (m * d) = 2 * n + d ∨ 2 * n = 2 * (m * d) + d → m % 2 = 0) :
    roundHalfEven n d = m := by
  have split := Nat.div_add_mod n d
  have small := Nat.mod_lt n hd
  unfold roundHalfEven
  dsimp only
  generalize n / d = q at *
  generalize n % d = r at *
  have below : q ≤ m := by
    by_contra above
    have more : d * (m + 1) ≤ d * q := Nat.mul_le_mul_left d (by omega)
    rw [Nat.mul_add, Nat.mul_comm d m] at more
    omega
  have close : m ≤ q + 1 := by
    by_contra above
    have more : d * (q + 2) ≤ d * m := Nat.mul_le_mul_left d (by omega)
    rw [Nat.mul_add, Nat.mul_comm d m] at more
    omega
  obtain rfl | rfl : m = q ∨ m = q + 1 := by omega
  · rw [Nat.mul_comm] at split
    split_ifs <;> omega
  · rw [Nat.mul_comm] at split
    rw [Nat.add_mul] at low high tie
    split_ifs <;> omega

/-! ## The exponent of a value -/

theorem scaledRatio_spec (num : Nat) {den : Nat} (hden : 0 < den) (shift : Int) :
    0 < (scaledRatio num den shift).2 ∧
      ((scaledRatio num den shift).1 : ℚ) / (scaledRatio num den shift).2 =
        num / den * 2 ^ (-shift) := by
  unfold scaledRatio
  split
  · next nonneg =>
    obtain ⟨k, rfl⟩ := Int.eq_ofNat_of_zero_le nonneg
    refine ⟨by simpa using hden, ?_⟩
    simp only [Int.toNat_natCast, Nat.pow_eq, Nat.cast_mul, Nat.cast_pow,
      Nat.cast_ofNat, zpow_neg, zpow_natCast]
    rw [div_mul_eq_div_div, div_eq_mul_inv (_ / _)]
  · next negative =>
    obtain ⟨k, hk⟩ := Int.eq_ofNat_of_zero_le (show 0 ≤ -shift by omega)
    obtain rfl : shift = -k := by omega
    refine ⟨hden, ?_⟩
    simp only [neg_neg, Int.toNat_natCast, Nat.pow_eq, Nat.cast_mul,
      Nat.cast_pow, Nat.cast_ofNat, zpow_natCast]
    rw [div_mul_eq_mul_div]

/-- The mantissa has 53 bits at the exponent. -/
def NormalAt (q : ℚ) (k : Int) : Prop :=
  2 ^ 52 * 2 ^ k ≤ q ∧ q < 2 ^ 53 * 2 ^ k

theorem NormalAt.le_of {q q' : ℚ} {k k' : Int} (h : NormalAt q k) (h' : NormalAt q' k')
    (le : q ≤ q') : k ≤ k' := by
  have lt : (2 : ℚ) ^ k < 2 ^ (k' + 1) := by
    rw [zpow_add_one₀ (by norm_num)]
    have := h.1.trans_lt (le.trans_lt h'.2)
    linarith
  have := (zpow_lt_zpow_iff_right₀ (by norm_num : (1 : ℚ) < 2)).mp lt
  omega

/-- A value is normal at one exponent. -/
theorem NormalAt.unique {q : ℚ} {k k' : Int} (h : NormalAt q k) (h' : NormalAt q k') : k = k' :=
  Int.le_antisymm (h.le_of h' le_rfl) (h'.le_of h le_rfl)

/-- A value lies between the powers of two that its logarithms give. -/
theorem log2_bounds {num den : Nat} (hnum : 0 < num) (hden : 0 < den) :
    (2 : ℚ) ^ ((num.log2 : Int) - den.log2 - 1) < num / den ∧
      (num : ℚ) / den < 2 ^ ((num.log2 : Int) - den.log2 + 1) := by
  have positive : (0 : ℚ) < den := by exact_mod_cast hden
  have two : (2 : ℚ) ≠ 0 := by norm_num
  have lowNum : (2 : ℚ) ^ num.log2 ≤ num := by exact_mod_cast Nat.log2_self_le hnum.ne'
  have highNum : (num : ℚ) < 2 ^ (num.log2 + 1) := by exact_mod_cast Nat.lt_log2_self
  have lowDen : (2 : ℚ) ^ den.log2 ≤ den := by exact_mod_cast Nat.log2_self_le hden.ne'
  have highDen : (den : ℚ) < 2 ^ (den.log2 + 1) := by exact_mod_cast Nat.lt_log2_self
  have pow : (0 : ℚ) < 2 ^ den.log2 := by positivity
  have pow' : (0 : ℚ) < 2 ^ num.log2 := by positivity
  constructor
  · rw [zpow_sub_one₀ two, zpow_sub₀ two, zpow_natCast, zpow_natCast, lt_div_iff₀ positive]
    rw [pow_succ] at highDen
    calc (2 : ℚ) ^ num.log2 / 2 ^ den.log2 * 2⁻¹ * den
        < (2 : ℚ) ^ num.log2 / 2 ^ den.log2 * 2⁻¹ * (2 ^ den.log2 * 2) := by gcongr
      _ = 2 ^ num.log2 := by field_simp
      _ ≤ num := lowNum
  · rw [zpow_add_one₀ two, zpow_sub₀ two, zpow_natCast, zpow_natCast, div_lt_iff₀ positive]
    rw [pow_succ] at highNum
    calc (num : ℚ) < 2 ^ num.log2 * 2 := highNum
      _ = (2 : ℚ) ^ num.log2 / 2 ^ den.log2 * 2 * 2 ^ den.log2 := by field_simp
      _ ≤ (2 : ℚ) ^ num.log2 / 2 ^ den.log2 * 2 * den := by gcongr

/-- **The exponent of a value** is the one at which it is normal, or the least one. -/
theorem exponentFor_eq {num den : Nat} (hnum : 0 < num) (hden : 0 < den) {k : Int}
    (normal : NormalAt ((num : ℚ) / den) k) : exponentFor num den = max minExponent k := by
  have two : (2 : ℚ) ≠ 0 := by norm_num
  obtain ⟨low, high⟩ := log2_bounds hnum hden
  unfold exponentFor
  dsimp only
  generalize hg : (num.log2 : Int) - den.log2 - 52 = g
  obtain ⟨hd, scaled⟩ := scaledRatio_spec num hden g
  generalize scaledRatio num den g = nd at *
  obtain ⟨n, d⟩ := nd
  dsimp only at hd scaled ⊢
  have hd' : (0 : ℚ) < d := by exact_mod_cast hd
  have pow : (0 : ℚ) < 2 ^ g := by positivity
  have value : (num : ℚ) / den = n / d * 2 ^ g := by
    rw [scaled, mul_assoc, ← zpow_add₀ two]
    simp
  have low' : 2 ^ 51 * 2 ^ g < (num : ℚ) / den := by
    refine lt_of_eq_of_lt ?_ low
    rw [← zpow_natCast, ← zpow_add₀ two]
    congr 1
    omega
  have high' : (num : ℚ) / den < 2 ^ 53 * 2 ^ g := by
    refine lt_of_lt_of_eq high ?_
    rw [← zpow_natCast (2 : ℚ) 53, ← zpow_add₀ two]
    congr 1
    omega
  have floor : n / d < 2 ^ 52 ↔ (num : ℚ) / den < 2 ^ 52 * 2 ^ g := by
    rw [Nat.div_lt_iff_lt_mul hd, value, mul_lt_mul_iff_left₀ pow, div_lt_iff₀ hd']
    exact_mod_cast Iff.rfl
  congr 1
  split
  · next less =>
    refine NormalAt.unique ⟨?_, ?_⟩ normal
    · rw [zpow_sub_one₀ two]
      linarith
    · rw [zpow_sub_one₀ two]
      have := floor.mp less
      linarith
  · next notLess =>
    exact NormalAt.unique ⟨not_lt.mp fun less => notLess (floor.mpr less), high'⟩ normal

theorem exists_normalAt {num den : Nat} (hnum : 0 < num) (hden : 0 < den) :
    ∃ k, NormalAt ((num : ℚ) / den) k := by
  have two : (2 : ℚ) ≠ 0 := by norm_num
  obtain ⟨low, high⟩ := log2_bounds hnum hden
  generalize (num : ℚ) / den = q at *
  obtain ⟨g, hg⟩ : ∃ g : Int, g = (num.log2 : Int) - den.log2 - 52 := ⟨_, rfl⟩
  have low' : 2 ^ 51 * 2 ^ g < q := by
    refine lt_of_eq_of_lt ?_ low
    rw [← zpow_natCast, ← zpow_add₀ two]
    congr 1
    omega
  have high' : q < 2 ^ 53 * 2 ^ g := by
    refine lt_of_lt_of_eq high ?_
    rw [← zpow_natCast (2 : ℚ) 53, ← zpow_add₀ two]
    congr 1
    omega
  by_cases less : q < 2 ^ 52 * 2 ^ g
  · refine ⟨g - 1, ?_, ?_⟩
    · rw [zpow_sub_one₀ two]
      linarith
    · rw [zpow_sub_one₀ two]
      linarith
  · exact ⟨g, not_lt.mp less, high'⟩

/-- Small values have the least exponent. -/
theorem exponentFor_eq_min {num den : Nat} (hnum : 0 < num) (hden : 0 < den)
    (small : (num : ℚ) / den < 2 ^ 53 * 2 ^ minExponent) : exponentFor num den = minExponent := by
  obtain ⟨k, normal⟩ := exists_normalAt hnum hden
  rw [exponentFor_eq hnum hden normal]
  have lt : (2 : ℚ) ^ k < 2 ^ (minExponent + 1) := by
    rw [zpow_add_one₀ (by norm_num)]
    have := normal.1.trans_lt small
    linarith
  have := (zpow_lt_zpow_iff_right₀ (by norm_num : (1 : ℚ) < 2)).mp lt
  omega

/-! ## Rounding intervals -/

/-- The mantissas and exponents of the format. -/
structure Canonical (m : Nat) (e : Int) : Prop where
  small : m < 2 ^ 53
  least : minExponent ≤ e
  greatest : e ≤ maxExponent
  normal : 2 ^ 52 ≤ m ∨ e = minExponent

/-- The midpoint to the number below. -/
def lowMidpoint (m : Nat) (e : Int) : ℚ :=
  if m = 2 ^ 52 ∧ minExponent < e then (m - 1 / 4) * 2 ^ e else (m - 1 / 2) * 2 ^ e

/-- The midpoint to the number above. -/
def highMidpoint (m : Nat) (e : Int) : ℚ :=
  (m + 1 / 2) * 2 ^ e

/-- The number below is one unit away or half a unit. -/
theorem lowMidpoint_bounds (m : Nat) (e : Int) :
    (m - 1 / 2) * 2 ^ e ≤ lowMidpoint m e ∧ lowMidpoint m e ≤ (m - 1 / 4) * 2 ^ e := by
  have pow : (0 : ℚ) ≤ 2 ^ e := by positivity
  have order : ((m : ℚ) - 1 / 2) * 2 ^ e ≤ (m - 1 / 4) * 2 ^ e :=
    mul_le_mul_of_nonneg_right (by linarith) pow
  unfold lowMidpoint
  split
  · exact ⟨order, le_rfl⟩
  · exact ⟨le_rfl, order⟩

/-- What lies in a rounding interval. -/
theorem holds_iff {m : Nat} (hm : 0 < m) (e : Int) {r : Ratio} (hr : 0 < r.den) :
    (interval m e).holds r = true ↔
      lowMidpoint m e ≤ r.value ∧ r.value ≤ highMidpoint m e ∧
        (r.value = lowMidpoint m e ∨ r.value = highMidpoint m e → m % 2 = 0) := by
  have two : (2 : ℚ) ≠ 0 := by norm_num
  have low : (interval m e).low.value = lowMidpoint m e ∧ 0 < (interval m e).low.den := by
    unfold interval lowMidpoint
    dsimp only
    rw [Nat.pow_eq]
    by_cases power : m = 2 ^ 52 ∧ minExponent < e
    · rw [if_pos power, if_pos power]
      refine ⟨?_, Ratio.den_ofBinary _ _⟩
      rw [Ratio.value_ofBinary, Nat.cast_sub (by omega), zpow_sub₀ two]
      push_cast
      ring
    · rw [if_neg power, if_neg power]
      refine ⟨?_, Ratio.den_ofBinary _ _⟩
      rw [Ratio.value_ofBinary, Nat.cast_sub (by omega), zpow_sub₀ two]
      push_cast
      ring
  have high : (interval m e).high.value = highMidpoint m e ∧ 0 < (interval m e).high.den := by
    refine ⟨?_, Ratio.den_ofBinary _ _⟩
    rw [interval, highMidpoint, Ratio.value_ofBinary, zpow_sub₀ two]
    push_cast
    ring
  have closed : (interval m e).closed = (m % 2 == 0) := rfl
  rw [Interval.holds, closed]
  split
  · next even =>
    rw [Bool.and_eq_true, Ratio.le_iff low.2 hr, Ratio.le_iff hr high.2, low.1, high.1]
    have even' : m % 2 = 0 := by simpa using even
    simp [even']
  · next odd =>
    rw [Bool.and_eq_true, Ratio.lt_iff low.2 hr, Ratio.lt_iff hr high.2, low.1, high.1]
    have odd' : m % 2 ≠ 0 := by simpa using odd
    constructor
    · rintro ⟨hl, hh⟩
      refine ⟨hl.le, hh.le, ?_⟩
      rintro (same | same)
      · exact absurd same hl.ne'
      · exact absurd same hh.ne
    · rintro ⟨hl, hh, tie⟩
      refine ⟨lt_of_le_of_ne hl fun same => odd' (tie (.inl same.symm)), ?_⟩
      exact lt_of_le_of_ne hh fun same => odd' (tie (.inr same))

/-- The nearest whole number, for a rational number. -/
theorem roundHalfEven_of_value {n d m : Nat} (hd : 0 < d) {x : ℚ} (value : (n : ℚ) / d = x)
    (low : m - 1 / 2 ≤ x) (high : x ≤ m + 1 / 2)
    (tie : x = m - 1 / 2 ∨ x = m + 1 / 2 → m % 2 = 0) : roundHalfEven n d = m := by
  have hd' : (0 : ℚ) < d := by exact_mod_cast hd
  have whole : (n : ℚ) = x * d := by
    rw [← value]
    field_simp
  refine roundHalfEven_eq hd ?_ ?_ ?_
  · have scaled : (m - 1 / 2) * (d : ℚ) ≤ x * d := mul_le_mul_of_nonneg_right low hd'.le
    have : (2 * (m * d) : ℚ) ≤ 2 * n + d := by linarith
    exact_mod_cast this
  · have scaled : x * d ≤ (m + 1 / 2) * (d : ℚ) := mul_le_mul_of_nonneg_right high hd'.le
    have : (2 * n : ℚ) ≤ 2 * (m * d) + d := by linarith
    exact_mod_cast this
  · intro even
    refine tie ?_
    rcases even with even | even
    · left
      have : (2 * (m * d) : ℚ) = 2 * n + d := by exact_mod_cast even
      rw [whole] at this
      have := mul_right_cancel₀ hd'.ne' (show (x : ℚ) * d = (m - 1 / 2) * d by linarith)
      exact this
    · right
      have : (2 * n : ℚ) = 2 * (m * d) + d := by exact_mod_cast even
      rw [whole] at this
      have := mul_right_cancel₀ hd'.ne' (show (x : ℚ) * d = (m + 1 / 2) * d by linarith)
      exact this

/-! ## Rounding -/

/-- Rounding, once the exponent and the mantissa at it are known. -/
theorem ofRatio_eq {num den m : Nat} {e : Int} (hnum : 0 < num) (hden : 0 < den)
    (exponent : exponentFor num den = e) {x : ℚ} (value : (num : ℚ) / den = x * 2 ^ e)
    (low : m - 1 / 2 ≤ x) (high : x ≤ m + 1 / 2)
    (tie : x = m - 1 / 2 ∨ x = m + 1 / 2 → m % 2 = 0) :
    ofRatio false num den =
      let (m, e) := if m = 2 ^ 53 then (2 ^ 52, e + 1) else (m, e)
      if maxExponent < e then .infinite false else .finite false m e := by
  obtain ⟨hd, scaled⟩ := scaledRatio_spec num hden e
  have pow : (2 : ℚ) ^ e ≠ 0 := by positivity
  rw [value, zpow_neg, mul_assoc, mul_inv_cancel₀ pow, mul_one] at scaled
  have rounded := roundHalfEven_of_value hd scaled low high tie
  unfold ofRatio
  rw [if_neg hnum.ne', exponent]
  dsimp only
  rw [rounded]
  rfl

/-- A value just below a power of two is rounded up to the power: the exponent is the one below, and
the mantissa is carried. -/
theorem ofRatio_below_power {num den : Nat} {e : Int} (above : minExponent < e)
    (greatest : e ≤ maxExponent) (hnum : 0 < num) (hden : 0 < den) {x : ℚ}
    (value : (num : ℚ) / den = x * 2 ^ e) (low : 2 ^ 52 - 1 / 4 ≤ x) (below : x < 2 ^ 52) :
    ofRatio false num den = .finite false (2 ^ 52) e := by
  have value' : (num : ℚ) / den = 2 * x * 2 ^ (e - 1) := by
    rw [value, zpow_sub_one₀ (by norm_num)]
    ring
  have pow' : (0 : ℚ) < 2 ^ (e - 1) := by positivity
  have normal : NormalAt ((num : ℚ) / den) (e - 1) := by
    rw [value', NormalAt, mul_le_mul_iff_left₀ pow', mul_lt_mul_iff_left₀ pow']
    constructor <;> linarith
  have exponent := exponentFor_eq hnum hden normal
  rw [max_eq_right (by omega)] at exponent
  rw [ofRatio_eq (m := 2 ^ 53) hnum hden exponent value' (by push_cast; linarith)
    (by push_cast; linarith) (fun _ => by decide)]
  simp only [if_true, Int.sub_add_cancel]
  rw [if_neg (by omega)]

/-- The exponent of a number is that of the values around it, but for those just below a power of
two. -/
theorem exponentFor_of_bounds {m : Nat} {e : Int} (canonical : Canonical m e) {num den : Nat}
    (hnum : 0 < num) (hden : 0 < den) {x : ℚ} (value : (num : ℚ) / den = x * 2 ^ e)
    (low : m - 1 / 2 ≤ x) (high : x ≤ m + 1 / 2)
    (noCarry : ¬((m = 2 ^ 52 ∧ minExponent < e) ∧ x < 2 ^ 52)) : exponentFor num den = e := by
  have pow : (0 : ℚ) < 2 ^ e := by positivity
  have small : (m : ℚ) + 1 ≤ 2 ^ 53 := by exact_mod_cast canonical.small
  by_cases least : e = minExponent
  · rw [least] at value pow ⊢
    refine exponentFor_eq_min hnum hden ?_
    rw [value, mul_lt_mul_iff_left₀ pow]
    linarith
  · have above := canonical.least
    have big := canonical.normal.resolve_right least
    have above' : minExponent < e := by omega
    have normal : NormalAt ((num : ℚ) / den) e := by
      rw [value, NormalAt, mul_le_mul_iff_left₀ pow, mul_lt_mul_iff_left₀ pow]
      refine ⟨?_, by linarith⟩
      rcases Nat.eq_or_lt_of_le big with rfl | bigger
      · exact not_lt.mp fun less => noCarry ⟨⟨rfl, above'⟩, less⟩
      · have : (2 ^ 52 : ℚ) + 1 ≤ m := by exact_mod_cast bigger
        linarith
    rw [exponentFor_eq hnum hden normal, max_eq_right (by omega)]

/-- **The values of a rounding interval are rounded to its number.** -/
theorem ofRatio_of_holds {m : Nat} {e : Int} (canonical : Canonical m e) (hm : 0 < m)
    {num den : Nat} (hden : 0 < den) (holds : (interval m e).holds ⟨num, den⟩ = true) :
    ofRatio false num den = .finite false m e := by
  have pow : (0 : ℚ) < 2 ^ e := by positivity
  have one : (1 : ℚ) ≤ m := by exact_mod_cast hm
  obtain ⟨low, high, tie⟩ := (holds_iff hm e hden).mp holds
  rw [Ratio.value] at low high tie
  dsimp only at low high tie
  obtain ⟨x, value⟩ : ∃ x : ℚ, (num : ℚ) / den = x * 2 ^ e :=
    ⟨num / den * (2 ^ e)⁻¹, by rw [mul_assoc, inv_mul_cancel₀ pow.ne', mul_one]⟩
  rw [value, highMidpoint, mul_le_mul_iff_left₀ pow] at high
  have low' : (m : ℚ) - 1 / 2 ≤ x := by
    rw [value] at low
    exact (mul_le_mul_iff_left₀ pow).mp ((lowMidpoint_bounds m e).1.trans low)
  have hnum : 0 < num := by
    have positive : (0 : ℚ) < num / den := by
      rw [value]
      have : (0 : ℚ) < x := by linarith
      positivity
    rcases Nat.eq_zero_or_pos num with rfl | hnum
    · simp at positive
    · exact hnum
  by_cases carry : (m = 2 ^ 52 ∧ minExponent < e) ∧ x < 2 ^ 52
  · obtain ⟨⟨rfl, above⟩, below⟩ := carry
    rw [value, lowMidpoint, if_pos ⟨rfl, above⟩, mul_le_mul_iff_left₀ pow] at low
    push_cast at low
    exact ofRatio_below_power above canonical.greatest hnum hden value low below
  · have exponent := exponentFor_of_bounds canonical hnum hden value low' high carry
    have even : x = m - 1 / 2 ∨ x = m + 1 / 2 → m % 2 = 0 := by
      rintro (same | same)
      · by_cases power : m = 2 ^ 52 ∧ minExponent < e
        · refine absurd ⟨power, ?_⟩ carry
          rw [same, power.1]
          norm_num
        · refine tie (.inl ?_)
          rw [value, lowMidpoint, if_neg power, same]
      · refine tie (.inr ?_)
        rw [value, highMidpoint, same]
    rw [ofRatio_eq hnum hden exponent value low' high even]
    have less := canonical.small
    have greatest := canonical.greatest
    simp only [if_neg (show ¬m = 2 ^ 53 by omega)]
    rw [if_neg (by omega)]

/-! ## The canonical form -/

theorem canonical_zero : Canonical 0 minExponent :=
  ⟨by decide, Int.le_refl _, by decide, .inr rfl⟩

theorem roundHalfEven_bounds (n d : Nat) :
    n / d ≤ roundHalfEven n d ∧ roundHalfEven n d ≤ n / d + 1 := by
  unfold roundHalfEven
  dsimp only
  split_ifs <;> omega

/-- The value at its exponent: below `2 ^ 53`, and from `2 ^ 52` on unless the exponent is the
least one. -/
theorem mantissa_bounds {num den : Nat} (hnum : 0 < num) (hden : 0 < den) :
    let e := exponentFor num den
    let (n, d) := scaledRatio num den e
    minExponent ≤ e ∧ n / d < 2 ^ 53 ∧ (2 ^ 52 ≤ n / d ∨ e = minExponent) := by
  have two : (2 : ℚ) ≠ 0 := by norm_num
  obtain ⟨k, normal⟩ := exists_normalAt hnum hden
  have exponent := exponentFor_eq hnum hden normal
  dsimp only
  generalize exponentFor num den = e at *
  obtain ⟨hd, scaled⟩ := scaledRatio_spec num hden e
  generalize scaledRatio num den e = nd at *
  obtain ⟨n, d⟩ := nd
  dsimp only at hd scaled ⊢
  have hd' : (0 : ℚ) < d := by exact_mod_cast hd
  have pow : (0 : ℚ) < 2 ^ e := by positivity
  have value : (num : ℚ) / den = n / d * 2 ^ e := by
    rw [scaled, mul_assoc, ← zpow_add₀ two]
    simp
  have least : minExponent ≤ e := by omega
  have le : (2 : ℚ) ^ k ≤ 2 ^ e := zpow_le_zpow_right₀ (by norm_num) (by omega)
  refine ⟨least, ?_, ?_⟩
  · rw [Nat.div_lt_iff_lt_mul hd]
    have : (n : ℚ) / d < 2 ^ 53 := by
      have := normal.2.trans_le (mul_le_mul_of_nonneg_left le (by norm_num))
      rw [value] at this
      exact (mul_lt_mul_iff_left₀ pow).mp this
    rw [div_lt_iff₀ hd'] at this
    exact_mod_cast this
  · by_cases h : e = minExponent
    · exact .inr h
    · obtain rfl : e = k := by omega
      left
      rw [Nat.le_div_iff_mul_le hd]
      have : (2 : ℚ) ^ 52 ≤ n / d := by
        have := normal.1
        rw [value] at this
        exact (mul_le_mul_iff_left₀ pow).mp this
      rw [le_div_iff₀ hd'] at this
      exact_mod_cast this

/-- **What is rounded has the canonical form.** -/
theorem canonical_of_ofRatio {num den m : Nat} {negative negative' : Bool} {e : Int}
    (hden : 0 < den) (h : ofRatio negative num den = .finite negative' m e) : Canonical m e := by
  unfold ofRatio at h
  split at h
  · cases h
    exact canonical_zero
  · next hnum =>
    have bounds := mantissa_bounds (Nat.pos_of_ne_zero hnum) hden
    dsimp only at bounds h
    have rounded := roundHalfEven_bounds (scaledRatio num den (exponentFor num den)).1
      (scaledRatio num den (exponentFor num den)).2
    rw [Nat.pow_eq, Nat.pow_eq] at h
    split_ifs at h with carry large large
    · cases h
      exact ⟨by norm_num, by omega, by omega, .inl (Nat.le_refl _)⟩
    · cases h
      obtain ⟨least, small, normal⟩ := bounds
      exact ⟨by omega, least, by omega, normal.imp_left fun big => by omega⟩

theorem canonical_of_ofDecimal {digits m : Nat} {negative negative' : Bool} {exponent e : Int}
    (h : ofDecimal negative digits exponent = .finite negative' m e) : Canonical m e := by
  unfold ofDecimal at h
  dsimp only at h
  split_ifs at h
  · cases h
    exact canonical_zero
  · cases h
    exact canonical_zero
  · exact canonical_of_ofRatio (by decide) h
  · exact canonical_of_ofRatio (by simp) h

/-- **A decimal is rounded** to a number of the format or, when it is too large, to an infinity. -/
theorem ofDecimal_cases (digits : Nat) (exponent : Int) :
    ofDecimal false digits exponent = .infinite false ∨
      ∃ m e, ofDecimal false digits exponent = .finite false m e ∧ Canonical m e := by
  have finite : ∀ m e, ofDecimal false digits exponent = .finite false m e →
      ∃ m e, ofDecimal false digits exponent = .finite false m e ∧ Canonical m e :=
    fun m e same => ⟨m, e, same, canonical_of_ofDecimal same⟩
  have rounded : ∀ num den, ofRatio false num den = .infinite false ∨
      ∃ m e, ofRatio false num den = .finite false m e := by
    intro num den
    unfold ofRatio
    dsimp only
    split_ifs
    all_goals first
      | exact .inl rfl
      | exact .inr ⟨_, _, rfl⟩
  have cases : ofDecimal false digits exponent = .infinite false ∨
      ∃ m e, ofDecimal false digits exponent = .finite false m e := by
    unfold ofDecimal
    dsimp only
    split_ifs
    · exact .inr ⟨_, _, rfl⟩
    · exact .inl rfl
    · exact .inr ⟨_, _, rfl⟩
    · exact rounded _ _
    · exact rounded _ _
  exact cases.imp_right fun ⟨m, e, same⟩ => finite m e same

end MeasureSql.Double
