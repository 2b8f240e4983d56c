import Mathlib.Data.List.TakeWhile
import MeasureSql.Number.Layout
import MeasureSql.Proofs.Number.Shortest

/-!
# Plain decimals are read back

Without an exponent, a whole number is written as digits alone and any other one with digits on
both sides of a point.  Both forms have the value of the shortest digits, which lies in the rounding
interval, so they are read back as the number.

## Main definitions

* `Digits.value` — the value of digits with a point.
* `Double.wholeValue?` — the value of a number that is whole.
* `Double.staysFloat` — is a number written so that it is read as a float again?

## Main results

* `Double.ofDecimal_of_holds` — a decimal of a rounding interval is read as its number.
* `Double.write_plain_whole`, `Double.write_plain_fraction` — the two forms, and that they are read
  back.
-/

namespace MeasureSql

/-! ## Digits with a point -/

namespace Digits

/-- The value of digits with a point. -/
def value (d : Digits) : ℚ :=
  digitsValue d.digits * 10 ^ (d.point - d.digits.length)

/-- Of whole digits some are zeros behind the last one. -/
theorem value_whole {d : Digits} (whole : d.digits.length ≤ d.point) :
    (digitsValue (d.digits ++ Layout.zeros (d.point - d.digits.length)) : ℚ) = d.value := by
  obtain ⟨k, hk⟩ := Int.eq_ofNat_of_zero_le (show 0 ≤ d.point - d.digits.length by omega)
  rw [value, Layout.zeros, hk, digitsValue_append, digitsValue_zeros, List.length_replicate]
  simp

/-- Whole digits are written without a point. -/
theorem positional_whole {d : Digits} (whole : d.digits.length ≤ d.point) :
    Layout.plain.positional d = d.digits ++ Layout.zeros (d.point - d.digits.length) := by
  simp [Layout.positional, whole, Layout.plain]

/-- **Other digits have a point between digits.** -/
theorem positional_fraction {d : Digits} (digits : ∀ c ∈ d.digits, c.isDigit = true)
    (nonempty : d.digits ≠ []) (short : d.point < d.digits.length) :
    ∃ whole fraction, Layout.plain.positional d = whole ++ '.' :: fraction ∧
      whole ≠ [] ∧ (∀ c ∈ whole, c.isDigit = true) ∧
      fraction ≠ [] ∧ (∀ c ∈ fraction, c.isDigit = true) ∧
      (digitsValue (whole ++ fraction) : ℚ) * 10 ^ (-(fraction.length : Int)) = d.value := by
  have length := List.length_pos_iff.mpr nonempty
  have zeros : ∀ n, ∀ c ∈ Layout.zeros n, c.isDigit = true := by
    intro n c hc
    rw [List.eq_of_mem_replicate hc]
    decide
  by_cases positive : 0 < d.point
  · obtain ⟨k, hk⟩ := Int.eq_ofNat_of_zero_le positive.le
    refine ⟨d.digits.take k, d.digits.drop k, ?_, ?_,
      fun c hc => digits c (List.mem_of_mem_take hc), ?_,
      fun c hc => digits c (List.mem_of_mem_drop hc), ?_⟩
    · rw [Layout.positional, if_neg (by omega), if_pos positive, hk, Int.toNat_natCast,
        List.append_assoc]
      rfl
    · simp only [ne_eq, List.take_eq_nil_iff, not_or]
      exact ⟨by omega, nonempty⟩
    · simp only [ne_eq, List.drop_eq_nil_iff]
      omega
    · rw [List.take_append_drop, List.length_drop, value, hk]
      congr 2
      omega
  · obtain ⟨k, hk⟩ := Int.eq_ofNat_of_zero_le (show 0 ≤ -d.point by omega)
    refine ⟨['0'], Layout.zeros (-d.point) ++ d.digits, ?_, by simp,
      List.forall_mem_singleton.mpr (by decide), by simp [nonempty], ?_, ?_⟩
    · rw [Layout.positional, if_neg (by omega), if_neg positive, List.append_assoc]
      rfl
    · intro c hc
      exact (List.mem_append.mp hc).elim (zeros _ c) (digits c)
    · have lead : digitsValue (['0'] ++ (Layout.zeros (-d.point) ++ d.digits)) =
          digitsValue d.digits := by
        have zero : digitsValue ['0'] = 0 := rfl
        rw [digitsValue_append, digitsValue_append, zero, Layout.zeros, digitsValue_zeros]
        simp
      rw [lead, value, Layout.zeros, hk, List.length_append, List.length_replicate]
      congr 2
      omega

end Digits

namespace Double

/-- The digits of a number are those that are kept and zeros behind them. -/
theorem digitsOf_spec {d : Nat} (hd : 0 < d) (p : Int) :
    ∃ k, Nat.toDigits 10 d = (digitsOf d p).digits ++ List.replicate k '0' ∧
      (digitsOf d p).digits ≠ [] ∧
      (digitsOf d p).point = (digitsOf d p).digits.length + k + p := by
  obtain ⟨all, hall⟩ : ∃ all, all = Nat.toDigits 10 d := ⟨_, rfl⟩
  have kept : (digitsOf d p).digits = (all.reverse.dropWhile (· == '0')).reverse := by
    rw [hall]
    rfl
  have point : (digitsOf d p).point = all.length + p := by
    rw [hall]
    rfl
  obtain ⟨k, run⟩ : ∃ k, all.reverse.takeWhile (· == '0') = List.replicate k '0' := by
    refine ⟨_, List.eq_replicate_of_mem fun c hc => ?_⟩
    simpa using List.all_eq_true.mp List.all_takeWhile c hc
  have parts : all = (digitsOf d p).digits ++ List.replicate k '0' := by
    rw [kept, ← List.reverse_replicate, ← run, ← List.reverse_append,
      List.takeWhile_append_dropWhile, List.reverse_reverse]
  refine ⟨k, hall ▸ parts, fun empty => ?_, ?_⟩
  · have value := digitsValue_toDigits d
    rw [← hall, parts, empty, List.nil_append, digitsValue_zeros] at value
    omega
  · rw [point]
    have lengths := congrArg List.length parts
    rw [List.length_append, List.length_replicate] at lengths
    omega

theorem value_digitsOf {d : Nat} (hd : 0 < d) (p : Int) : (digitsOf d p).value = d * 10 ^ p := by
  obtain ⟨k, parts, -, point⟩ := digitsOf_spec hd p
  have value := digitsValue_toDigits d
  rw [parts, digitsValue_append, digitsValue_zeros, List.length_replicate, Nat.add_zero] at value
  have exponent : (digitsOf d p).point - (digitsOf d p).digits.length = (k : Int) + p := by omega
  have value' : (digitsValue (digitsOf d p).digits : ℚ) * 10 ^ k = d := by exact_mod_cast value
  rw [Digits.value, exponent, zpow_add₀ (by norm_num), zpow_natCast, ← mul_assoc, value']

theorem isDigit_digitsOf {d : Nat} (hd : 0 < d) (p : Int) :
    ∀ c ∈ (digitsOf d p).digits, c.isDigit = true := by
  obtain ⟨k, parts, -, -⟩ := digitsOf_spec hd p
  intro c hc
  refine isDigit_of_mem_toDigits (n := d) ?_
  rw [parts]
  exact List.mem_append_left _ hc

/-! ## Reading decimals -/

/-- Whether a decimal lies in a rounding interval is a matter of its value. -/
theorem holds_of_value {m : Nat} {e : Int} (hm : 0 < m) {r r' : Ratio} (hr : 0 < r.den)
    (hr' : 0 < r'.den) (same : r.value = r'.value) (h : (interval m e).holds r = true) :
    (interval m e).holds r' = true := by
  rw [holds_iff hm e hr, same] at h
  exact (holds_iff hm e hr').mpr h

/-- The values of a rounding interval have a size that the format allows. -/
theorem bounds_of_holds {m : Nat} {e : Int} (canonical : Canonical m e) (hm : 0 < m) {r : Ratio}
    (hr : 0 < r.den) (h : (interval m e).holds r = true) :
    (10 : ℚ) ^ (-400 : Int) ≤ r.value ∧ r.value < 10 ^ (400 : Int) := by
  obtain ⟨low, high, -⟩ := (holds_iff hm e hr).mp h
  have one : (1 : ℚ) ≤ m := by exact_mod_cast hm
  have small : (m : ℚ) + 1 ≤ 2 ^ (53 : Int) := by exact_mod_cast canonical.small
  have eight : (8 : ℚ) ^ (400 : Int) ≤ 10 ^ (400 : Int) :=
    zpow_le_zpow_left₀ (by decide) (by norm_num) (by norm_num)
  have power : (8 : ℚ) ^ (400 : Int) = 2 ^ (1200 : Int) := by
    rw [show (8 : ℚ) = 2 ^ (3 : Int) by norm_num, ← zpow_mul]
    norm_num
  rw [power] at eight
  have least := canonical.least
  have greatest := canonical.greatest
  rw [minExponent] at least
  rw [maxExponent] at greatest
  constructor
  · have tiny : (10 : ℚ) ^ (-400 : Int) ≤ 2 ^ (-1200 : Int) := by
      rw [zpow_neg, zpow_neg]
      exact inv_anti₀ (by positivity) eight
    have half : (2 : ℚ) ^ (-1 : Int) * 2 ^ e ≤ lowMidpoint m e := by
      have pow : (0 : ℚ) < 2 ^ e := by positivity
      have inverse : (2 : ℚ) ^ (-1 : Int) = 1 / 2 := by norm_num
      rw [inverse]
      exact (mul_le_mul_of_nonneg_right (by linarith) pow.le).trans (lowMidpoint_bounds m e).1
    rw [← zpow_add₀ (by norm_num)] at half
    have order : (2 : ℚ) ^ (-1200 : Int) ≤ 2 ^ (-1 + e) :=
      zpow_le_zpow_right₀ (by norm_num) (by omega)
    exact tiny.trans (order.trans (half.trans low))
  · have order : (2 : ℚ) ^ (53 + e) ≤ 2 ^ (1200 : Int) :=
      zpow_le_zpow_right₀ (by norm_num) (by omega)
    have below : highMidpoint m e < 2 ^ (53 + e) := by
      have pow : (0 : ℚ) < 2 ^ e := by positivity
      rw [zpow_add₀ (by norm_num), highMidpoint]
      exact mul_lt_mul_of_pos_right (by linarith) pow
    exact high.trans_lt (below.trans_le (order.trans eight))

/-- Zero is in no rounding interval of a positive number. -/
theorem pos_of_holds {m : Nat} {e : Int} (canonical : Canonical m e) (hm : 0 < m) {n : Nat}
    {k : Int} (h : (interval m e).holds (.ofDecimal n k) = true) : 0 < n := by
  refine Nat.pos_of_ne_zero fun zero => ?_
  have bound := (bounds_of_holds canonical hm (Ratio.den_ofDecimal _ _) h).1
  have positive : (0 : ℚ) < 10 ^ (-400 : Int) := by positivity
  rw [Ratio.value_ofDecimal, zero, Nat.cast_zero, zero_mul] at bound
  exact absurd bound (not_le.mpr positive)

/-- **A decimal of a rounding interval is read as its number.** -/
theorem ofDecimal_of_holds {m : Nat} {e : Int} (canonical : Canonical m e) (hm : 0 < m) {n : Nat}
    {k : Int} (h : (interval m e).holds (.ofDecimal n k) = true) :
    ofDecimal false n k = .finite false m e := by
  have hr := Ratio.den_ofDecimal n k
  obtain ⟨low, high⟩ := bounds_of_holds canonical hm hr h
  rw [Ratio.value_ofDecimal] at low high
  have ten : (1 : ℚ) < 10 := by norm_num
  have pow : (0 : ℚ) < 10 ^ k := by positivity
  have positive := pos_of_holds canonical hm h
  obtain ⟨len, hlen⟩ : ∃ len, len + 1 = (Nat.toDigits 10 n).length :=
    ⟨_, Nat.sub_add_cancel Nat.length_toDigits_pos⟩
  have notLarge : ¬400 < ((len + 1 : Nat) : Int) + k := by
    intro large
    have digits : 10 ^ len ≤ n := by
      by_cases short : len = 0
      · rw [short, Nat.pow_zero]
        omega
      · refine Nat.le_of_not_lt fun less => ?_
        have := (Nat.length_toDigits_le_iff (by decide) (by omega)).mpr less
        omega
    have digits' : (10 : ℚ) ^ len ≤ n := by exact_mod_cast digits
    have order : (10 : ℚ) ^ (400 : Int) ≤ 10 ^ ((len : Int) + k) :=
      zpow_le_zpow_right₀ ten.le (by omega)
    rw [zpow_add₀ (by norm_num), zpow_natCast] at order
    exact absurd (order.trans (mul_le_mul_of_nonneg_right digits' pow.le)) (not_le.mpr high)
  have notSmall : ¬((len + 1 : Nat) : Int) + k < -400 := by
    intro small
    have digits : n < 10 ^ (len + 1) :=
      (Nat.length_toDigits_le_iff (by decide) (by omega)).mp hlen.symm.le
    have digits' : (n : ℚ) < 10 ^ (len + 1) := by exact_mod_cast digits
    have order : (10 : ℚ) ^ (((len + 1 : Nat) : Int) + k) ≤ 10 ^ (-400 : Int) :=
      zpow_le_zpow_right₀ ten.le (by omega)
    rw [zpow_add₀ (by norm_num), zpow_natCast] at order
    exact absurd low (not_le.mpr ((mul_lt_mul_of_pos_right digits' pow).trans_le order))
  unfold ofDecimal
  rw [if_neg positive.ne', ← hlen]
  dsimp only
  rw [if_neg notLarge, if_neg notSmall]
  unfold Ratio.ofDecimal at h hr
  split
  · next nonneg =>
    rw [if_pos nonneg] at h hr
    exact ofRatio_of_holds canonical hm hr h
  · next negative =>
    rw [if_neg negative] at h hr
    exact ofRatio_of_holds canonical hm hr h

theorem toLower_of_isDigit {c : Char} (digit : c.isDigit = true) : c.toLower = c := by
  have bounds : (decide (c.val ≥ '0'.val) && decide (c.val ≤ '9'.val)) = true := digit
  rw [Bool.and_eq_true, decide_eq_true_eq, decide_eq_true_eq] at bounds
  have low : ¬(c.val ≥ 'A'.val ∧ c.val ≤ 'Z'.val) := fun upper =>
    absurd (UInt32.le_trans upper.1 bounds.2) (by decide)
  exact dif_neg low

/-- What begins with a digit is read as digits. -/
theorem read?_of_digit {c : Char} {cs : List Char} (digit : c.isDigit = true) :
    read? (String.ofList (c :: cs)) = readUnsigned? false (c :: cs) := by
  have other : ∀ d, d.isDigit = false → c ≠ d := by
    rintro d no rfl
    cases digit.symm.trans no
  have inf : "inf".toList = 'i' :: ['n', 'f'] := by decide
  have infinity : "infinity".toList = 'i' :: ['n', 'f', 'i', 'n', 'i', 't', 'y'] := by decide
  have nan : "nan".toList = 'n' :: ['a', 'n'] := by decide
  unfold read?
  rw [String.toList_ofList, splitSign_of_digit digit, inf, infinity, nan]
  simp [toLower_of_isDigit digit, other 'i' (by decide), other 'n' (by decide)]

/-- **What begins with a digit is read** as a decimal, rounded. -/
theorem exists_ofDecimal_of_digit {c : Char} {cs : List Char} (digit : c.isDigit = true)
    {x : Double} (h : read? (String.ofList (c :: cs)) = some x) :
    ∃ d k, x = ofDecimal false d k := by
  rw [read?_of_digit digit, readUnsigned?] at h
  dsimp only at h
  -- Whether there is a point or not, what is read is a decimal without a sign.
  split at h <;>
  · rw [Option.ite_none_left_eq_some] at h
    obtain ⟨e, -, same⟩ := Option.map_eq_some_iff.mp h.2
    exact ⟨_, _, same.symm⟩

/-- **Digits are read** as their value, rounded. -/
theorem read?_digits {digits : List Char} (nonempty : digits ≠ [])
    (all : ∀ c ∈ digits, c.isDigit = true) :
    read? (String.ofList digits) = some (ofDecimal false (digitsValue digits) 0) := by
  have run : digits.takeWhile Char.isDigit = digits ∧ digits.dropWhile Char.isDigit = [] :=
    ⟨List.takeWhile_eq_self_iff.mpr all, List.dropWhile_eq_nil_iff.mpr all⟩
  obtain _ | ⟨c, cs⟩ := digits
  · exact absurd rfl nonempty
  · rw [read?_of_digit (all c (by simp)), readUnsigned?, run.1, run.2]
    simp [readExponent?]

/-- **Digits with a point are read** as their value, rounded. -/
theorem read?_fraction {whole fraction : List Char} (nonempty : whole ≠ [])
    (all : ∀ c ∈ whole, c.isDigit = true) (all' : ∀ c ∈ fraction, c.isDigit = true) :
    read? (String.ofList (whole ++ '.' :: fraction)) =
      some (ofDecimal false (digitsValue (whole ++ fraction)) (-(fraction.length : Int))) := by
  have run : (whole ++ '.' :: fraction).takeWhile Char.isDigit = whole ∧
      (whole ++ '.' :: fraction).dropWhile Char.isDigit = '.' :: fraction := by
    rw [List.takeWhile_append_of_pos all, List.dropWhile_append_of_pos all]
    simp
  have run' : fraction.takeWhile Char.isDigit = fraction ∧ fraction.dropWhile Char.isDigit = [] :=
    ⟨List.takeWhile_eq_self_iff.mpr all', List.dropWhile_eq_nil_iff.mpr all'⟩
  have read : readUnsigned? false (whole ++ '.' :: fraction) =
      some (ofDecimal false (digitsValue (whole ++ fraction)) (-(fraction.length : Int))) := by
    rw [readUnsigned?, run.1, run.2]
    simp [run'.1, run'.2, nonempty, readExponent?]
  obtain _ | ⟨c, cs⟩ := whole
  · exact absurd rfl nonempty
  · rw [List.cons_append, read?_of_digit (all c (by simp)), ← List.cons_append, read]

/-! ## Whole numbers -/

/-- The value of a number that is whole. -/
def wholeValue? (m : Nat) (e : Int) : Option Nat :=
  if 0 ≤ e then some (m * 2 ^ e.toNat)
  else if m % 2 ^ (-e).toNat = 0 then some (m / 2 ^ (-e).toNat)
  else none

/-- Does a number have a point when it is written, or need more than 64 bits? -/
def staysFloat : Double → Bool
  | .finite _ m e => match wholeValue? m e with
    | some n => decide (2 ^ 63 ≤ n)
    | none => true
  | _ => false

theorem wholeValue?_eq_some {m n : Nat} {e : Int} :
    wholeValue? m e = some n ↔ (n : ℚ) = m * 2 ^ e := by
  unfold wholeValue?
  split
  · next nonneg =>
    obtain ⟨k, rfl⟩ := Int.eq_ofNat_of_zero_le nonneg
    rw [Int.toNat_natCast, Option.some.injEq, zpow_natCast, eq_comm]
    exact_mod_cast Iff.rfl
  · next negative =>
    obtain ⟨k, hk⟩ := Int.eq_ofNat_of_zero_le (show 0 ≤ -e by omega)
    obtain rfl : e = -k := by omega
    have pow : (2 : ℚ) ^ k ≠ 0 := by positivity
    have cleared : (n : ℚ) = m * 2 ^ (-(k : Int)) ↔ n * 2 ^ k = m := by
      rw [zpow_neg, zpow_natCast, eq_mul_inv_iff_mul_eq₀ pow]
      exact_mod_cast Iff.rfl
    rw [cleared, neg_neg, Int.toNat_natCast]
    split
    · next divides =>
      have quotient := Nat.div_mul_cancel (Nat.dvd_of_mod_eq_zero divides)
      rw [Option.some.injEq]
      constructor
      · rintro rfl
        exact quotient
      · intro same
        rw [← same, Nat.mul_div_cancel _ (Nat.two_pow_pos k)]
    · next leaves =>
      refine ⟨nofun, fun same => absurd ?_ leaves⟩
      rw [← same, Nat.mul_mod_left]

/-- The only whole number in the rounding interval of a number with binary places is the number. -/
theorem eq_of_holds {m n : Nat} {e : Int} (hm : 0 < m) (places : e < 0)
    (h : (interval m e).holds (.ofDecimal n 0) = true) : (n : ℚ) = m * 2 ^ e := by
  obtain ⟨low, high, -⟩ := (holds_iff hm e (Ratio.den_ofDecimal _ _)).mp h
  rw [Ratio.value_ofDecimal, zpow_zero, mul_one] at low high
  obtain ⟨k, hk⟩ := Int.eq_ofNat_of_zero_le (show 0 ≤ -e by omega)
  obtain rfl : e = -k := by omega
  have pow : (0 : ℚ) < 2 ^ (-(k : Int)) := by positivity
  have unit : (2 : ℚ) ^ k * 2 ^ (-(k : Int)) = 1 := by
    rw [zpow_neg, zpow_natCast, mul_inv_cancel₀ (by positivity)]
  obtain ⟨scaled, hscaled⟩ : ∃ scaled : Nat, scaled = n * 2 ^ k := ⟨_, rfl⟩
  have value : (n : ℚ) = scaled * 2 ^ (-(k : Int)) := by
    rw [hscaled]
    push_cast
    rw [mul_assoc, unit, mul_one]
  have low' : ((m : ℚ) - 1 / 2) * 2 ^ (-(k : Int)) ≤ scaled * 2 ^ (-(k : Int)) := by
    rw [← value]
    exact (lowMidpoint_bounds m _).1.trans low
  rw [value, highMidpoint] at high
  rw [mul_le_mul_iff_left₀ pow] at low' high
  have below : m < scaled + 1 := by
    have : (m : ℚ) < scaled + 1 := by linarith
    exact_mod_cast this
  have above : scaled < m + 1 := by
    have : (scaled : ℚ) < m + 1 := by linarith
    exact_mod_cast this
  rw [value, show scaled = m by omega]

/-- A decimal of the rounding interval of a whole number needs as many bits as the number. -/
theorem fits_iff_of_holds {m n d : Nat} {e : Int} (canonical : Canonical m e) (hm : 0 < m)
    (whole : (n : ℚ) = m * 2 ^ e) (apart : ¬(m = 2 ^ 52 ∧ e = 11))
    (h : (interval m e).holds (.ofDecimal d 0) = true) : d < 2 ^ 63 ↔ n < 2 ^ 63 := by
  obtain ⟨low, high, -⟩ := (holds_iff hm e (Ratio.den_ofDecimal _ _)).mp h
  rw [Ratio.value_ofDecimal, zpow_zero, mul_one] at low high
  have small : (m : ℚ) + 1 ≤ 2 ^ 53 := by exact_mod_cast canonical.small
  have one : (1 : ℚ) ≤ m := by exact_mod_cast hm
  have pow : (0 : ℚ) < 2 ^ e := by positivity
  by_cases few : e ≤ 10
  · have scale : (2 : ℚ) ^ e ≤ 2 ^ (10 : Int) := zpow_le_zpow_right₀ (by norm_num) few
    have ten : (2 : ℚ) ^ (10 : Int) = 1024 := by norm_num
    rw [ten] at scale
    have fits : (n : ℚ) < 2 ^ 63 := by
      rw [whole]
      nlinarith only [one, small, pow, scale]
    have fits' : (d : ℚ) < 2 ^ 63 := by
      refine high.trans_lt ?_
      rw [highMidpoint]
      nlinarith only [one, small, pow, scale]
    exact iff_of_true (by exact_mod_cast fits') (by exact_mod_cast fits)
  · have normal : 2 ^ 52 ≤ m := canonical.normal.resolve_right fun least => by
      rw [least, minExponent] at few
      omega
    have normal' : (2 : ℚ) ^ 52 ≤ m := by exact_mod_cast normal
    have eleven : (2 : ℚ) ^ (11 : Int) ≤ 2 ^ e := zpow_le_zpow_right₀ (by norm_num) (by omega)
    have value : (2 : ℚ) ^ (11 : Int) = 2048 := by norm_num
    rw [value] at eleven
    have large : (2 : ℚ) ^ 63 ≤ n := by
      rw [whole]
      nlinarith only [normal', eleven]
    have large' : (2 : ℚ) ^ 63 ≤ d := by
      refine le_trans ?_ ((lowMidpoint_bounds m e).1.trans low)
      by_cases last : e = 11
      · have next : 2 ^ 52 + 1 ≤ m := by omega
        have next' : (2 : ℚ) ^ 52 + 1 ≤ m := by exact_mod_cast next
        rw [last, value]
        linarith
      · have twelve : (2 : ℚ) ^ (12 : Int) ≤ 2 ^ e := zpow_le_zpow_right₀ (by norm_num) (by omega)
        have value' : (2 : ℚ) ^ (12 : Int) = 4096 := by norm_num
        rw [value'] at twelve
        nlinarith only [normal', twelve]
    exact iff_of_false (not_lt.mpr (by exact_mod_cast large'))
      (not_lt.mpr (by exact_mod_cast large))

/-! ## The plain form -/

theorem write_plain {m : Nat} (hm : 0 < m) (e : Int) :
    (finite false m e).write .plain =
      String.ofList (Layout.plain.positional (shortest .up m e)) := by
  simp [write, hm.ne', Layout.magnitude, Layout.plain]

/-- **A whole number is written as digits**, which are read back as it, and need more than 64 bits
when it does. -/
theorem write_plain_whole {m n : Nat} {e : Int} (canonical : Canonical m e)
    (whole : wholeValue? m e = some n) :
    ∃ digits, (finite false m e).write .plain = String.ofList digits ∧ digits ≠ [] ∧
      (∀ c ∈ digits, c.isDigit = true) ∧
      read? (String.ofList digits) = some (finite false m e) ∧
      (digitsValue digits < 2 ^ 63 ↔ n < 2 ^ 63) := by
  rw [wholeValue?_eq_some] at whole
  obtain rfl | hm := Nat.eq_zero_or_pos m
  · obtain rfl : e = minExponent := canonical.normal.resolve_left (by decide)
    obtain rfl : n = 0 := by simpa using whole
    exact ⟨['0'], rfl, by simp, List.forall_mem_singleton.mpr (by decide), by decide +kernel,
      by decide⟩
  obtain ⟨d, p, short, holds, wholeDigits⟩ := shortest_spec .up canonical hm
  have nonneg := wholeDigits n whole
  have hd := pos_of_holds canonical hm holds
  obtain ⟨k, -, nonempty, point⟩ := digitsOf_spec hd p
  have noPlaces : ((digitsOf d p).digits.length : Int) ≤ (digitsOf d p).point := by omega
  have text := Digits.positional_whole noPlaces
  have value := Digits.value_whole noPlaces
  rw [value_digitsOf hd] at value
  have all : ∀ c ∈ Layout.plain.positional (digitsOf d p), c.isDigit = true := by
    intro c hc
    rw [text] at hc
    rcases List.mem_append.mp hc with hc | hc
    · exact isDigit_digitsOf hd p c hc
    · rw [List.eq_of_mem_replicate hc]
      decide
  have filled : Layout.plain.positional (digitsOf d p) ≠ [] := by
    rw [text]
    simp [nonempty]
  have holds' : (interval m e).holds
      (.ofDecimal (digitsValue (Layout.plain.positional (digitsOf d p))) 0) = true := by
    refine holds_of_value hm (Ratio.den_ofDecimal _ _) (Ratio.den_ofDecimal _ _) ?_ holds
    rw [Ratio.value_ofDecimal, Ratio.value_ofDecimal, zpow_zero, mul_one, text, value]
  refine ⟨_, by rw [write_plain hm, short], filled, all, ?_, ?_⟩
  · rw [read?_digits filled all, ofDecimal_of_holds canonical hm holds']
  · by_cases edge : m = 2 ^ 52 ∧ e = 11
    · -- The interval of this number goes below `2 ^ 63`, but its shortest digits do not.
      obtain ⟨rfl, rfl⟩ := edge
      have digits : ¬digitsValue (Layout.plain.positional (shortest .up (2 ^ 52) 11)) < 2 ^ 63 := by
        decide +kernel
      rw [short] at digits
      refine iff_of_false digits (not_lt.mpr ?_)
      have power : (n : ℚ) = 2 ^ 63 := by
        rw [whole]
        norm_num
      exact_mod_cast power.symm.le
    · exact fits_iff_of_holds canonical hm whole edge holds'

/-- **Any other number is written with a point**, and is read back. -/
theorem write_plain_fraction {m : Nat} {e : Int} (canonical : Canonical m e)
    (broken : wholeValue? m e = none) :
    ∃ whole fraction, (finite false m e).write .plain = String.ofList (whole ++ '.' :: fraction) ∧
      whole ≠ [] ∧ (∀ c ∈ whole, c.isDigit = true) ∧
      fraction ≠ [] ∧ (∀ c ∈ fraction, c.isDigit = true) ∧
      read? (String.ofList (whole ++ '.' :: fraction)) = some (finite false m e) := by
  have hm : 0 < m := Nat.pos_of_ne_zero fun zero => by
    have none : wholeValue? m e = some 0 := wholeValue?_eq_some.mpr (by simp [zero])
    rw [broken] at none
    cases none
  obtain ⟨d, p, short, holds, -⟩ := shortest_spec .up canonical hm
  have hd := pos_of_holds canonical hm holds
  have places : e < 0 := by
    refine not_le.mp fun nonneg => ?_
    rw [wholeValue?, if_pos nonneg] at broken
    cases broken
  have point : (digitsOf d p).point < (digitsOf d p).digits.length := by
    refine not_le.mp fun whole => ?_
    have value := Digits.value_whole whole
    rw [value_digitsOf hd] at value
    generalize digitsValue ((digitsOf d p).digits ++ _) = n at value
    have holds' : (interval m e).holds (.ofDecimal n 0) = true := by
      refine holds_of_value hm (Ratio.den_ofDecimal _ _) (Ratio.den_ofDecimal _ _) ?_ holds
      rw [Ratio.value_ofDecimal, Ratio.value_ofDecimal, zpow_zero, mul_one, value]
    rw [wholeValue?_eq_some.mpr (eq_of_holds hm places holds')] at broken
    cases broken
  obtain ⟨k, -, nonempty, -⟩ := digitsOf_spec hd p
  obtain ⟨whole, fraction, text, filled, all, filled', all', value⟩ :=
    Digits.positional_fraction (isDigit_digitsOf hd p) nonempty point
  have holds' : (interval m e).holds
      (.ofDecimal (digitsValue (whole ++ fraction)) (-(fraction.length : Int))) = true := by
    refine holds_of_value hm (Ratio.den_ofDecimal _ _) (Ratio.den_ofDecimal _ _) ?_ holds
    rw [Ratio.value_ofDecimal, Ratio.value_ofDecimal, value, value_digitsOf hd]
  refine ⟨whole, fraction, by rw [write_plain hm, short, text], filled, all, filled', all', ?_⟩
  rw [read?_fraction filled all all', ofDecimal_of_holds canonical hm holds']

end Double

end MeasureSql
