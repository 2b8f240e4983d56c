import MeasureSql.Proofs.Text.Capitals
import MeasureSql.Render.Names

/-!
# The case of the letters A to Z

The full mappings and the classes of characters do not tell the letters a to z from their capitals.
So two texts that differ in the case of these letters only have the same capital form and the same
small form, also where a capital sigma ends a word, and the same name is guessed for both.

## Main results

* `upper_asciiUpper`, `lower_asciiUpper` — the full mappings.
* `mem_of_mem_upper`, `mem_of_mem_lower` — they bring in no marks.
* `guess_asciiUpper` — the name that is used when nothing is known.
-/

namespace MeasureSql

namespace Text

theorem toUpper_of_not_isAscii {c : Char} (h : isAscii c = false) : c.toUpper = c := by
  unfold Char.toUpper
  split
  · next small =>
    have low : c.val.toNat ≤ 122 := UInt32.le_iff_toNat_le.mp small.2
    simp only [isAscii, decide_eq_false_iff_not, UInt32.lt_iff_toNat_lt, UInt32.reduceToNat] at h
    omega
  · rfl

/-- **Nothing tells a letter from its capital.** -/
theorem toUpper_alike (c : Char) :
    upperChar c.toUpper = upperChar c ∧ lowerChar c.toUpper = lowerChar c ∧
      isBlank c.toUpper = isBlank c ∧ isCased c.toUpper = isCased c ∧
      isCaseIgnorable c.toUpper = isCaseIgnorable c ∧
      (c.toUpper.toNat == 0x3A3) = (c.toNat == 0x3A3) ∧ c.toUpper.toUpper = c.toUpper := by
  cases ascii : isAscii c with
  | true =>
    refine of_isAscii ascii ?_
    decide +kernel
  | false =>
    simp [toUpper_of_not_isAscii ascii]

@[simp]
theorem toList_asciiUpper (s : String) : (asciiUpper s).toList = s.toList.map Char.toUpper := by
  simp [asciiUpper]

@[simp]
theorem asciiUpper_asciiUpper (s : String) : asciiUpper (asciiUpper s) = asciiUpper s := by
  rw [← String.toList_inj]
  simp [fun c => (toUpper_alike c).2.2.2.2.2.2]

@[simp]
theorem upper_asciiUpper (s : String) : upper (asciiUpper s) = upper s := by
  simp [upper, List.flatMap_map, fun c => (toUpper_alike c).1]

theorem dropWhile_map_toUpper {p : Char → Bool} (hp : ∀ c : Char, p c.toUpper = p c)
    (cs : List Char) : (cs.map Char.toUpper).dropWhile p = (cs.dropWhile p).map Char.toUpper := by
  rw [List.dropWhile_map]
  simp [Function.comp_def, hp]

theorem meetsCased_map (cs : List Char) : meetsCased (cs.map Char.toUpper) = meetsCased cs := by
  unfold meetsCased
  rw [dropWhile_map_toUpper fun c => (toUpper_alike c).2.2.2.2.1]
  cases cs.dropWhile isCaseIgnorable with
  | nil => rfl
  | cons c cs => simp [(toUpper_alike c).2.2.2.1]

/-- Small forms, with what has been passed in capitals as well. -/
theorem lowerFrom_map (before cs : List Char) :
    lowerFrom (before.map Char.toUpper) (cs.map Char.toUpper) = lowerFrom before cs := by
  induction cs generalizing before with
  | nil => rfl
  | cons c cs ih =>
    obtain ⟨-, small, -, -, -, sigma, -⟩ := toUpper_alike c
    rw [List.map_cons, lowerFrom, lowerFrom, ← List.map_cons, ih, sigma, small, meetsCased_map,
      meetsCased_map]

@[simp]
theorem lower_asciiUpper (s : String) : lower (asciiUpper s) = lower s := by
  rw [lower, toList_asciiUpper]
  exact congrArg String.ofList (lowerFrom_map [] s.toList)

/-- On ASCII text the two mappings agree. -/
theorem lower_eq_asciiLower {s : String} (h : ∀ c ∈ s.toList, isAscii c = true) :
    lower s = asciiLower s := by
  have each (before cs : List Char) (hcs : ∀ c ∈ cs, isAscii c = true) :
      lowerFrom before cs = cs.map Char.toLower := by
    induction cs generalizing before with
    | nil => rfl
    | cons c cs ih =>
      obtain ⟨hc, rest⟩ := List.forall_mem_cons.mp hcs
      have noSigma : (c.toNat == 0x3A3) = false := by
        refine of_isAscii hc ?_
        decide +kernel
      simp [lowerFrom, noSigma, lowerChar, hc, ih _ rest]
  exact congrArg String.ofList (each [] s.toList h)

theorem trim_asciiUpper (s : String) : trim (asciiUpper s) = asciiUpper (trim s) := by
  have blank (cs : List Char) := dropWhile_map_toUpper (fun c => (toUpper_alike c).2.2.1) cs
  simp [← String.toList_inj, trim, trimChars, blank, ← List.map_reverse]

/-! ## Marks -/

/-- A character before the capital letters that can be printed: a blank, a mark or a digit. -/
def isMark (c : Char) : Bool :=
  32 ≤ c.toNat && c.toNat < 65

/-- No letter is moved to a code point before the capital letters. -/
theorem runs_above :
    upperRuns.all (fun r => 65 ≤ r.first + r.shift) = true ∧
      lowerRuns.all (fun r => 65 ≤ r.first + r.shift) = true := by
  rw [← Array.all_toList, ← Array.all_toList]
  decide +kernel

theorem specials_above : upperSpecials.all (fun entry => entry.2.all (65 ≤ ·)) = true := by
  rw [← Array.all_toList]
  decide +kernel

theorem isMark_ofNat {n : Nat} (h : 65 ≤ n) : isMark (Char.ofNat n) = false := by
  by_cases valid : n.isValidChar
  · rw [isMark, toNat_ofNat valid]
    simp [h]
  · rw [Char.ofNat, dif_neg valid]
    rfl

theorem isMark_move {r : CaseRun} (hr : r ∈ upperRuns ∨ r ∈ lowerRuns) {n : Nat}
    (hn : r.holds n = true) : isMark (r.move n) = false := by
  have above : decide (65 ≤ r.first + r.shift) = true :=
    hr.elim (Array.all_eq_true_iff_forall_mem.mp runs_above.1 r)
      (Array.all_eq_true_iff_forall_mem.mp runs_above.2 r)
  simp only [CaseRun.holds, Bool.and_eq_true, decide_eq_true_eq] at hn above
  exact isMark_ofNat (by omega)

/-- A mark has no other case. -/
theorem eq_of_isMark {c : Char} (hc : isAscii c = true) :
    (isMark c.toUpper = true → c.toUpper = c) ∧ (isMark c.toLower = true → c.toLower = c) := by
  refine of_isAscii hc ?_
  decide +kernel

/-- **A mark is the capital form of itself only.** -/
theorem eq_of_mem_upperChar {c d : Char} (h : d ∈ upperChar c) (hd : isMark d = true) : d = c := by
  unfold upperChar at h
  split at h
  · next ascii =>
    obtain rfl := List.mem_singleton.mp h
    exact (eq_of_isMark ascii).1 hd
  · split at h
    · next entry image found =>
      obtain ⟨n, hn, rfl⟩ := List.mem_map.mp h
      have above := Array.all_eq_true_iff_forall_mem.mp specials_above _
        (Array.mem_of_find?_eq_some found)
      rw [isMark_ofNat (by simpa using List.all_eq_true.mp above n hn)] at hd
      cases hd
    · split at h
      · next run found =>
        have mem : run ∈ upperRuns := Array.mem_of_find?_eq_some found
        have holds := Array.find?_some found
        rw [List.mem_singleton.mp h, isMark_move (.inl mem) holds] at hd
        cases hd
      · exact List.mem_singleton.mp h

/-- **A mark is the small form of itself only.** -/
theorem eq_of_mem_lowerChar {c d : Char} (h : d ∈ lowerChar c) (hd : isMark d = true) : d = c := by
  unfold lowerChar at h
  split at h
  · next ascii =>
    obtain rfl := List.mem_singleton.mp h
    exact (eq_of_isMark ascii).2 hd
  · split at h
    · simp only [List.mem_cons, List.not_mem_nil, or_false] at h
      rcases h with rfl | rfl <;> cases hd
    · split at h
      · next run found =>
        have mem : run ∈ lowerRuns := Array.mem_of_find?_eq_some found
        have holds := Array.find?_some found
        rw [List.mem_singleton.mp h, isMark_move (.inr mem) holds] at hd
        cases hd
      · exact List.mem_singleton.mp h

theorem mem_of_mem_asciiUpper {s : String} {d : Char} (h : d ∈ (asciiUpper s).toList)
    (hd : isMark d = true) : d ∈ s.toList := by
  rw [toList_asciiUpper] at h
  obtain ⟨c, hc, rfl⟩ := List.mem_map.mp h
  cases ascii : isAscii c with
  | true => exact ((eq_of_isMark ascii).1 hd).symm ▸ hc
  | false => exact (toUpper_of_not_isAscii ascii).symm ▸ hc

theorem mem_of_mem_upper {s : String} {d : Char} (h : d ∈ (upper s).toList)
    (hd : isMark d = true) : d ∈ s.toList := by
  rw [upper, String.toList_ofList] at h
  obtain ⟨c, hc, mem⟩ := List.mem_flatMap.mp h
  exact eq_of_mem_upperChar mem hd ▸ hc

theorem mem_of_mem_lowerFrom {before cs : List Char} {d : Char} (h : d ∈ lowerFrom before cs)
    (hd : isMark d = true) : d ∈ cs := by
  induction cs generalizing before with
  | nil => cases h
  | cons c cs ih =>
    rcases List.mem_append.mp h with h | h
    · split at h
      · split at h
        all_goals
          rw [List.mem_singleton.mp h] at hd
          cases hd
      · exact eq_of_mem_lowerChar h hd ▸ List.mem_cons_self
    · exact List.mem_cons_of_mem _ (ih h)

theorem mem_of_mem_lower {s : String} {d : Char} (h : d ∈ (lower s).toList)
    (hd : isMark d = true) : d ∈ s.toList := by
  rw [lower, String.toList_ofList] at h
  exact mem_of_mem_lowerFrom h hd

theorem mem_of_mem_trim {s : String} {d : Char} (h : d ∈ (trim s).toList) : d ∈ s.toList := by
  rw [trim, String.toList_ofList, trimChars, List.mem_reverse] at h
  have inner := (List.dropWhile_sublist _).subset h
  exact (List.dropWhile_sublist _).subset (List.mem_reverse.mp inner)

end Text

@[simp]
theorem guess_asciiUpper (name : String) : guess (Text.asciiUpper name) = guess name := by
  rw [guess, Text.trim_asciiUpper, Text.lower_asciiUpper]
  rfl

/-- **A guess has no mark that the name has not.** -/
theorem mem_of_mem_guess {name : String} {d : Char} (h : d ∈ (guess name).toList)
    (hd : Text.isMark d = true) : d ∈ name.toList := by
  rw [guess, String.toList_map] at h
  obtain ⟨c, hc, same⟩ := List.mem_map.mp h
  split at same
  · rw [← same] at hd
    cases hd
  · exact Text.mem_of_mem_trim (Text.mem_of_mem_lower (same ▸ hc) hd)

end MeasureSql
