import MeasureSql.Proofs.Number.Digits
import MeasureSql.Proofs.Number.Rounding

/-!
# The shortest digits lie in the rounding interval

The search for the shortest digits of a double tries one grid of decimals after another, from a
coarse one on.  The seventeenth grid is finer than the rounding interval, so one of the two
neighbours of the number on it is in the interval, and the search has come to an end by then.

## Main results

* `Double.leads_leadingExponent` — the search begins at the order of the number or below.
* `Double.searchGrids_spec` — it ends on a grid with a decimal of the interval.
* `Double.shortest_spec` — the shortest digits are in the interval, and they are whole when the
  number is.
-/

namespace MeasureSql.Double

variable {tie : Tie} {m : Nat} {e : Int}

/-! ## Grids -/

/-- Where a number lies on a grid. -/
theorem floorDiv_spec (m : Nat) (e p : Int) :
    (((Ratio.ofBinary m e).floorDiv (.ofDecimal 1 p) : Nat) : ℚ) * 10 ^ p ≤ m * 2 ^ e ∧
      (m * 2 ^ e : ℚ) < ((Ratio.ofBinary m e).floorDiv (.ofDecimal 1 p) + 1 : Nat) * 10 ^ p := by
  have pow : (0 : ℚ) < 10 ^ p := by positivity
  have hv := Ratio.value_ofBinary m e
  have hp := Ratio.value_ofDecimal 1 p
  have hd := Ratio.den_ofBinary m e
  have hd' := Ratio.den_ofDecimal 1 p
  generalize Ratio.ofBinary m e = v at *
  generalize Ratio.ofDecimal 1 p = g at *
  rw [Nat.cast_one, one_mul] at hp
  have vden : (0 : ℚ) < v.den := by exact_mod_cast hd
  have gden : (0 : ℚ) < g.den := by exact_mod_cast hd'
  have gnum : (0 : ℚ) < g.num := by
    rw [← hp, Ratio.value] at pow
    exact (div_pos_iff_of_pos_right gden).mp pow
  have gnum' : 0 < g.num := by exact_mod_cast gnum
  rw [← hv, ← hp, Ratio.value, Ratio.value, Ratio.floorDiv]
  have den : 0 < v.den * g.num := Nat.mul_pos hd gnum'
  constructor
  · have low := Nat.div_mul_le_self (v.num * g.den) (v.den * g.num)
    have low' : ((v.num * g.den / (v.den * g.num) : Nat) : ℚ) * (v.den * g.num) ≤
        v.num * g.den := by exact_mod_cast low
    rw [mul_div_assoc', div_le_div_iff₀ gden vden]
    linarith
  · have high := Nat.lt_div_mul_add den (a := v.num * g.den)
    have high' : (v.num * g.den : ℚ) <
        (v.num * g.den / (v.den * g.num) : Nat) * (v.den * g.num) + v.den * g.num := by
      exact_mod_cast high
    rw [mul_div_assoc', div_lt_div_iff₀ vden gden]
    push_cast
    linarith

/-- What a grid gives lies in the interval. -/
theorem onGrid_holds {i : Interval} {v : Ratio} {p : Int} {d : Nat}
    (h : onGrid tie i v p = some d) : i.holds (.ofDecimal d p) = true := by
  unfold onGrid at h
  dsimp only at h
  split at h
  · next below _ =>
    cases h
    exact below
  · next _ above =>
    cases h
    exact above
  · cases h
  · next below above =>
    have one : d = v.floorDiv (.ofDecimal 1 p) ∨ d = v.floorDiv (.ofDecimal 1 p) + 1 := by
      cases tie
      all_goals
        dsimp only at h
        split_ifs at h
        all_goals
          cases h
          simp
    rcases one with rfl | rfl
    · exact below
    · exact above

/-- A grid with a neighbour in the interval gives one. -/
theorem onGrid_isSome {i : Interval} {v : Ratio} {p : Int}
    (h : i.holds (.ofDecimal (v.floorDiv (.ofDecimal 1 p)) p) = true ∨
      i.holds (.ofDecimal (v.floorDiv (.ofDecimal 1 p) + 1) p) = true) :
    (onGrid tie i v p).isSome = true := by
  unfold onGrid
  dsimp only
  split
  · rfl
  · rfl
  · next below above =>
    rw [below, above] at h
    simp at h
  · cases tie
    all_goals
      dsimp only
      split_ifs
      all_goals rfl

/-- **A search comes to an end** on the first grid that gives something. -/
theorem searchGrids_spec {i : Interval} {v : Ratio} {fuel : Nat} {p : Int} {n : Nat}
    (enough : n < fuel) (hit : (onGrid tie i v (p - n)).isSome = true) :
    i.holds (.ofDecimal (searchGrids tie i v fuel p).1 (searchGrids tie i v fuel p).2) = true ∧
      p - n ≤ (searchGrids tie i v fuel p).2 := by
  induction fuel generalizing p n with
  | zero => omega
  | succ fuel ih =>
    unfold searchGrids
    cases found : onGrid tie i v p with
    | some d => exact ⟨onGrid_holds found, by dsimp only; omega⟩
    | none =>
      obtain _ | n := n
      · rw [Nat.cast_zero, Int.sub_zero, found] at hit
        cases hit
      · have next : p - (n + 1 : Nat) = p - 1 - (n : Int) := by omega
        rw [next] at hit
        obtain ⟨holds, fine⟩ := ih (by omega) hit
        exact ⟨holds, by dsimp only; omega⟩

/-! ## The order of a number -/

/-- **The search for the order goes up** and stays below the number. -/
theorem leads_leadingExponent {v : Ratio} (hv : 0 < v.den) (fuel : Nat) {p : Int}
    (leads : (10 : ℚ) ^ p ≤ v.value) :
    (10 : ℚ) ^ leadingExponent v fuel p ≤ v.value ∧ p ≤ leadingExponent v fuel p := by
  induction fuel generalizing p with
  | zero => exact ⟨leads, Int.le_refl _⟩
  | succ fuel ih =>
    unfold leadingExponent
    split
    · next le =>
      rw [Ratio.le_iff (Ratio.den_ofDecimal _ _) hv, Ratio.value_ofDecimal, Nat.cast_one,
        one_mul] at le
      obtain ⟨leads', up⟩ := ih le
      exact ⟨leads', by omega⟩
    · exact ⟨leads, Int.le_refl _⟩

/-- A number from one on has a leading digit before the point. -/
theorem leadingExponent_nonneg {v : Ratio} (hv : 0 < v.den) {fuel : Nat} {p : Int}
    (least : -1 ≤ p) (leads : (10 : ℚ) ^ p ≤ v.value) (one : 1 ≤ v.value) :
    0 ≤ leadingExponent v (fuel + 1) p := by
  obtain rfl | nonneg : p = -1 ∨ 0 ≤ p := by omega
  · have le : (Ratio.ofDecimal 1 (-1 + 1)).le v = true := by
      rw [Ratio.le_iff (Ratio.den_ofDecimal _ _) hv, Ratio.value_ofDecimal]
      simpa using one
    have first : (10 : ℚ) ^ (-1 + 1 : Int) ≤ v.value := by simpa using one
    rw [leadingExponent, if_pos le]
    exact (leads_leadingExponent hv fuel first).2
  · exact nonneg.trans (leads_leadingExponent hv _ leads).2

theorem ten_pow_le_two_pow : 10 ^ 1233 ≤ 2 ^ 4096 := by
  have parts : (10 ^ 9) ^ 137 ≤ (2 ^ 16) ^ 256 := by decide +kernel
  rwa [← Nat.pow_mul, ← Nat.pow_mul] at parts

theorem two_pow_le_ten_pow : 2 ^ 4096 ≤ 10 ^ 1234 := by
  have parts : (2 ^ 16) ^ 256 ≤ (10 ^ 2) ^ 617 := by decide +kernel
  rwa [← Nat.pow_mul, ← Nat.pow_mul] at parts

/-- **The logarithm to base ten is estimated** from that to base two, not too high. -/
theorem ten_zpow_estimate {k : Int} (least : -4096 ≤ k) :
    (10 : ℚ) ^ (k * 1233 / 4096 - 1) ≤ 2 ^ k := by
  have low : k * 1233 / 4096 * 4096 ≤ k * 1233 := Int.ediv_mul_le _ (by decide)
  generalize k * 1233 / 4096 = q at *
  by_cases nonneg : 0 ≤ k
  · by_cases small : q - 1 ≤ 0
    · calc (10 : ℚ) ^ (q - 1) ≤ 10 ^ (0 : Int) := zpow_le_zpow_right₀ (by norm_num) small
        _ = 2 ^ (0 : Int) := by norm_num
        _ ≤ 2 ^ k := zpow_le_zpow_right₀ (by norm_num) nonneg
    · obtain ⟨r, hr⟩ := Int.eq_ofNat_of_zero_le (show 0 ≤ q - 1 by omega)
      obtain ⟨j, rfl⟩ := Int.eq_ofNat_of_zero_le nonneg
      have powers : (10 ^ r) ^ 4096 ≤ (2 ^ j) ^ 4096 := by
        calc (10 ^ r) ^ 4096 = 10 ^ (r * 4096) := (Nat.pow_mul ..).symm
          _ ≤ 10 ^ (1233 * j) := Nat.pow_le_pow_right (by decide) (by omega)
          _ = (10 ^ 1233) ^ j := Nat.pow_mul ..
          _ ≤ (2 ^ 4096) ^ j := Nat.pow_le_pow_left ten_pow_le_two_pow j
          _ = (2 ^ j) ^ 4096 := by rw [← Nat.pow_mul, ← Nat.pow_mul, Nat.mul_comm]
      have bases := (Nat.pow_le_pow_iff_left (by decide)).mp powers
      rw [hr]
      exact_mod_cast bases
  · obtain ⟨j, hj⟩ := Int.eq_ofNat_of_zero_le (show 0 ≤ -k by omega)
    obtain ⟨r, hr⟩ := Int.eq_ofNat_of_zero_le (show 0 ≤ 1 - q by omega)
    have powers : (2 ^ j) ^ 4096 ≤ (10 ^ r) ^ 4096 := by
      calc (2 ^ j) ^ 4096 = (2 ^ 4096) ^ j := by rw [← Nat.pow_mul, ← Nat.pow_mul, Nat.mul_comm]
        _ ≤ (10 ^ 1234) ^ j := Nat.pow_le_pow_left two_pow_le_ten_pow j
        _ = 10 ^ (1234 * j) := (Nat.pow_mul ..).symm
        _ ≤ 10 ^ (r * 4096) := Nat.pow_le_pow_right (by decide) (by omega)
        _ = (10 ^ r) ^ 4096 := Nat.pow_mul ..
    have bases := (Nat.pow_le_pow_iff_left (by decide)).mp powers
    have cast : (2 : ℚ) ^ j ≤ 10 ^ r := by exact_mod_cast bases
    obtain rfl : k = -j := by omega
    obtain rfl : q = 1 - r := by omega
    rw [show (1 : Int) - r - 1 = -r by omega, zpow_neg, zpow_neg, zpow_natCast, zpow_natCast]
    exact inv_anti₀ (by positivity) cast

/-! ## Fine grids -/

/-- The number itself lies in its interval. -/
theorem midpoints (m : Nat) (e : Int) :
    lowMidpoint m e < m * 2 ^ e ∧ (m : ℚ) * 2 ^ e < highMidpoint m e := by
  have pow : (0 : ℚ) < 2 ^ e := by positivity
  refine ⟨(lowMidpoint_bounds m e).2.trans_lt ?_, ?_⟩
  · exact mul_lt_mul_of_pos_right (by linarith) pow
  · exact mul_lt_mul_of_pos_right (by linarith) pow

theorem holds_of_lt {m : Nat} {e : Int} (hm : 0 < m) {r : Ratio} (hr : 0 < r.den)
    (low : lowMidpoint m e < r.value) (high : r.value < highMidpoint m e) :
    (interval m e).holds r = true :=
  (holds_iff hm e hr).mpr ⟨low.le, high.le, fun h => (h.elim low.ne' high.ne).elim⟩

/-- **The seventeenth grid is fine enough.** -/
theorem onGrid_isSome_of_fine {m : Nat} {e p : Int} (hm : 0 < m) (small : m < 2 ^ 53)
    (fine : (10 : ℚ) ^ (p + 16) ≤ m * 2 ^ e) :
    (onGrid tie (interval m e) (.ofBinary m e) p).isSome = true := by
  have pow : (0 : ℚ) < 2 ^ e := by positivity
  have small' : (m : ℚ) + 1 ≤ 2 ^ 53 := by exact_mod_cast small
  obtain ⟨below, above⟩ := floorDiv_spec m e p
  obtain ⟨low, high⟩ := midpoints m e
  rw [zpow_add₀ (by norm_num)] at fine
  refine onGrid_isSome ?_
  by_contra none
  rw [not_or] at none
  generalize (Ratio.ofBinary m e).floorDiv (.ofDecimal 1 p) = b at *
  have belowLow : (b : ℚ) * 10 ^ p ≤ lowMidpoint m e := by
    by_contra inside
    refine none.1 (holds_of_lt hm (Ratio.den_ofDecimal _ _) ?_ ?_)
    · rw [Ratio.value_ofDecimal]
      exact not_le.mp inside
    · rw [Ratio.value_ofDecimal]
      exact below.trans_lt high
  have aboveHigh : highMidpoint m e ≤ ((b + 1 : Nat) : ℚ) * 10 ^ p := by
    by_contra inside
    refine none.2 (holds_of_lt hm (Ratio.den_ofDecimal _ _) ?_ ?_)
    · rw [Ratio.value_ofDecimal]
      exact low.trans above
    · rw [Ratio.value_ofDecimal]
      exact not_le.mp inside
  -- The step of the grid would be as wide as the interval.
  have wide : highMidpoint m e - lowMidpoint m e ≤ 10 ^ p := by
    push_cast at aboveHigh
    linarith
  have sixteen : (10 : ℚ) ^ (16 : Int) = 10 ^ 16 := by norm_cast
  rw [sixteen] at fine
  unfold highMidpoint lowMidpoint at wide
  split at wide
  · next power =>
    rw [power.1] at wide fine
    push_cast at wide fine
    nlinarith
  · nlinarith

/-- The grid of whole numbers has a whole number on it. -/
theorem onGrid_isSome_of_whole {m n : Nat} {e : Int} (hm : 0 < m) (whole : (n : ℚ) = m * 2 ^ e) :
    (onGrid tie (interval m e) (.ofBinary m e) 0).isSome = true := by
  obtain ⟨below, above⟩ := floorDiv_spec m e 0
  obtain ⟨low, high⟩ := midpoints m e
  rw [← whole, zpow_zero, mul_one, Nat.cast_le] at below
  rw [← whole, zpow_zero, mul_one, Nat.cast_lt] at above
  have same : (Ratio.ofBinary m e).floorDiv (.ofDecimal 1 0) = n := by omega
  refine onGrid_isSome (.inl (holds_of_lt hm (Ratio.den_ofDecimal _ _) ?_ ?_))
  all_goals rwa [same, Ratio.value_ofDecimal, zpow_zero, mul_one, whole]

/-! ## The shortest digits -/

theorem two_zpow_log2_le {m : Nat} (hm : 0 < m) (e : Int) :
    (2 : ℚ) ^ ((m.log2 : Int) + e) ≤ m * 2 ^ e := by
  have pow : (0 : ℚ) < 2 ^ e := by positivity
  have low : (2 : ℚ) ^ m.log2 ≤ m := by exact_mod_cast Nat.log2_self_le hm.ne'
  rw [zpow_add₀ (by norm_num), zpow_natCast]
  exact mul_le_mul_of_nonneg_right low pow.le

/-- A number from one on has a logarithm from zero on. -/
theorem log2_nonneg {m : Nat} {e : Int} (one : 1 ≤ (m : ℚ) * 2 ^ e) :
    0 ≤ (m.log2 : Int) + e := by
  have pow : (0 : ℚ) < 2 ^ e := by positivity
  have high : (m : ℚ) < 2 ^ (m.log2 + 1) := by exact_mod_cast Nat.lt_log2_self
  have lt : (2 : ℚ) ^ (0 : Int) < 2 ^ (((m.log2 + 1 : Nat) : Int) + e) := by
    rw [zpow_add₀ (by norm_num), zpow_natCast, zpow_zero]
    exact one.trans_lt (mul_lt_mul_of_pos_right high pow)
  have exponents := (zpow_lt_zpow_iff_right₀ (by norm_num : (1 : ℚ) < 2)).mp lt
  omega

/-- **The shortest digits are in the rounding interval**, and those of a whole number are whole. -/
theorem shortest_spec (tie : Tie) {m : Nat} {e : Int} (canonical : Canonical m e) (hm : 0 < m) :
    ∃ d p, shortest tie m e = digitsOf d p ∧ (interval m e).holds (.ofDecimal d p) = true ∧
      ∀ n : Nat, (n : ℚ) = m * 2 ^ e → 0 ≤ p := by
  have low := two_zpow_log2_le hm e
  have hv := Ratio.den_ofBinary m e
  have least := canonical.least
  rw [minExponent] at least
  have leads :
      (10 : ℚ) ^ (((m.log2 : Int) + e) * 1233 / 4096 - 1) ≤ (Ratio.ofBinary m e).value := by
    rw [Ratio.value_ofBinary]
    exact (ten_zpow_estimate (by omega)).trans low
  obtain ⟨lead, hlead⟩ : ∃ lead, lead = leadingExponent (.ofBinary m e) 4
      (((m.log2 : Int) + e) * 1233 / 4096 - 1) := ⟨_, rfl⟩
  have led := (leads_leadingExponent hv 4 leads).1
  rw [← hlead, Ratio.value_ofBinary] at led
  have sixteen : (onGrid tie (interval m e) (.ofBinary m e) (lead - (16 : Nat))).isSome = true := by
    refine onGrid_isSome_of_fine hm canonical.small ?_
    rwa [Nat.cast_ofNat, Int.sub_add_cancel]
  obtain ⟨holds, coarse⟩ := searchGrids_spec (show 16 < 17 by decide) sixteen
  refine ⟨_, _, by rw [shortest, ← hlead], holds, fun n whole => ?_⟩
  have one : 1 ≤ (m : ℚ) * 2 ^ e := by
    have positive : (0 : ℚ) < n := by
      rw [whole]
      positivity
    rw [← whole]
    exact_mod_cast positive
  have nonneg : 0 ≤ lead := by
    have log := log2_nonneg one
    rw [hlead]
    refine leadingExponent_nonneg hv (by omega) leads ?_
    rwa [Ratio.value_ofBinary]
  by_cases large : 16 ≤ lead
  · omega
  · obtain ⟨offset, rfl⟩ := Int.eq_ofNat_of_zero_le nonneg
    have hit : (onGrid tie (interval m e) (.ofBinary m e) ((offset : Int) - offset)).isSome =
        true := by
      rw [Int.sub_self]
      exact onGrid_isSome_of_whole hm whole
    have reached := (searchGrids_spec (show offset < 17 by omega) hit).2
    omega

end MeasureSql.Double
