import MeasureSql.Proofs.Text.Classes
import MeasureSql.Text.CaseMap

/-!
# Two ways to capitals

The full capital form of a text and its ASCII capital form agree on ASCII text.  Elsewhere the full
mapping can still produce ASCII: a long s becomes an `S`, a dotless i an `I`, a ligature a pair of
letters.  Every such image holds one of three letters, so a word without them has no capital form in
common with a text that is not ASCII.

## Main results

* `upper_of_asciiUpper` — an ASCII word reached by the ASCII mapping is reached by the full one.
* `asciiUpper_of_upper` — a word without the three letters that is reached by the full mapping is
  reached by the ASCII one.
* `upper_upper` — the capital form of a text is its own capital form.
-/

namespace MeasureSql.Text

/-- The letters of which every all-ASCII image of a letter above U+007F holds at least one. -/
def foreignCapitals : List Char := ['S', 'I', 'F']

/-- Is the code point a character above U+007F or one of the three letters? -/
def isForeignCode (n : Nat) : Bool :=
  (0x80 ≤ n && (n < 0xD800 || (0xDFFF < n && n < 0x110000)))
    || foreignCapitals.contains (Char.ofNat n)

/-- Are all letters of a run moved to such code points?  Between its ends a run may be tested
nowhere, so both ends are held to one side of the surrogates. -/
def CaseRun.isForeign (r : CaseRun) : Bool :=
  (0x80 ≤ r.first + r.shift
      && (r.last + r.shift < 0xD800 || (0xDFFF < r.first + r.shift && r.last + r.shift < 0x110000)))
    || (r.first == r.last && isForeignCode (r.first + r.shift).toNat)

/-- Every run of the table is moved to such code points. -/
theorem upperRuns_isForeign : upperRuns.all CaseRun.isForeign = true := by
  rw [← Array.all_toList]
  decide +kernel

/-- Every image of several characters holds such a code point. -/
theorem upperSpecials_isForeign :
    upperSpecials.all (fun entry => entry.2.any isForeignCode) = true := by
  rw [← Array.all_toList]
  decide +kernel

/-- A character of such a code point is not ASCII, or is one of the three letters. -/
theorem foreign_ofNat {n : Nat} (h : isForeignCode n = true) :
    isAscii (Char.ofNat n) = false ∨ Char.ofNat n ∈ foreignCapitals := by
  simp only [isForeignCode, Bool.or_eq_true, Bool.and_eq_true, decide_eq_true_eq,
    List.contains_iff_mem] at h
  rcases h with ⟨hlow, hvalid⟩ | hmem
  · left
    have hchar : n.isValidChar := by
      rw [Nat.isValidChar]
      omega
    have hval : (Char.ofNat n).val.toNat = n := toNat_ofNat hchar
    simp only [isAscii, decide_eq_false_iff_not, UInt32.lt_iff_toNat_lt, hval]
    simp only [UInt32.reduceToNat]
    omega
  · exact .inr hmem

/-- Every letter of a run is moved to such a code point. -/
theorem CaseRun.isForeignCode_move {r : CaseRun} (hr : r.isForeign = true) {n : Nat}
    (hn : r.holds n = true) : isForeignCode (n + r.shift).toNat = true := by
  simp only [holds, Bool.and_eq_true, decide_eq_true_eq] at hn
  simp only [isForeign, Bool.or_eq_true, Bool.and_eq_true, decide_eq_true_eq, beq_iff_eq] at hr
  rcases hr with ⟨hlow, hvalid⟩ | ⟨hsingle, hcode⟩
  · simp only [isForeignCode, Bool.or_eq_true, Bool.and_eq_true, decide_eq_true_eq]
    left
    omega
  · have heq : n = r.first := by omega
    rw [heq]
    exact hcode

/-- **The capital form of a character above U+007F holds a character that is not ASCII or one of the
three letters.** -/
theorem exists_foreign_upperChar {c : Char} (hc : isAscii c = false) :
    ∃ d ∈ upperChar c, isAscii d = false ∨ d ∈ foreignCapitals := by
  rw [upperChar]
  rw [if_neg (by simp [hc])]
  split
  · next entry image hfind =>
    have hentry := Array.mem_of_find?_eq_some hfind
    have hany := Array.all_eq_true_iff_forall_mem.mp upperSpecials_isForeign _ hentry
    obtain ⟨n, hn, hcode⟩ := List.any_eq_true.mp hany
    exact ⟨Char.ofNat n, List.mem_map.mpr ⟨n, hn, rfl⟩, foreign_ofNat hcode⟩
  · split
    · next run hfind =>
      have hrun := Array.all_eq_true_iff_forall_mem.mp upperRuns_isForeign _
        (Array.mem_of_find?_eq_some hfind)
      have hholds := Array.find?_some hfind
      exact ⟨run.move c.toNat, List.mem_singleton.mpr rfl,
        foreign_ofNat (run.isForeignCode_move hrun hholds)⟩
    · exact ⟨c, List.mem_singleton.mpr rfl, .inl hc⟩

/-- The ASCII mapping moves no character into ASCII. -/
theorem isAscii_of_toUpper {c : Char} (h : isAscii c.toUpper = true) : isAscii c = true := by
  unfold Char.toUpper at h
  split at h
  · next hlower =>
    simp only [isAscii, decide_eq_true_eq, UInt32.lt_iff_toNat_lt]
    have hz : c.val.toNat ≤ 122 := UInt32.le_iff_toNat_le.mp hlower.2
    simp only [UInt32.reduceToNat]
    omega
  · exact h

/-- On ASCII text the two mappings agree. -/
theorem upper_eq_asciiUpper {s : String} (h : ∀ c ∈ s.toList, isAscii c = true) :
    upper s = asciiUpper s := by
  unfold upper asciiUpper
  congr 1
  generalize s.toList = cs at h
  induction cs with
  | nil => rfl
  | cons c cs ih =>
    have hc : upperChar c = [c.toUpper] := by
      rw [upperChar]
      rw [if_pos (h c List.mem_cons_self)]
    rw [List.flatMap_cons, hc, ih fun d hd => h d (List.mem_cons_of_mem c hd)]
    rfl

/-- **An ASCII word reached by the ASCII mapping is reached by the full one.** -/
theorem upper_of_asciiUpper {s w : String} (h : asciiUpper s = w)
    (hw : w.toList.all isAscii = true) : upper s = w := by
  rw [← h]
  refine upper_eq_asciiUpper fun c hc =>
    isAscii_of_toUpper (List.all_eq_true.mp hw c.toUpper ?_)
  rw [← h]
  simp only [asciiUpper, String.toList_ofList]
  exact List.mem_map_of_mem hc

/-- **A word without the three letters that is reached by the full mapping is reached by the ASCII
one.** -/
theorem asciiUpper_of_upper {s w : String} (h : upper s = w)
    (hw : w.toList.all (fun c => isAscii c && !foreignCapitals.contains c) = true) :
    asciiUpper s = w := by
  have hascii : ∀ c ∈ s.toList, isAscii c = true := by
    intro c hc
    cases hne : isAscii c with
    | true => rfl
    | false =>
      obtain ⟨d, hd, hforeign⟩ := exists_foreign_upperChar hne
      have hdw : d ∈ w.toList := by
        rw [← h]
        simp only [upper, String.toList_ofList, List.mem_flatMap]
        exact ⟨c, hc, hd⟩
      obtain ⟨hda, hdn⟩ : isAscii d = true ∧ d ∉ foreignCapitals := by
        simpa using List.all_eq_true.mp hw d hdw
      rcases hforeign with hf | hf
      · rw [hda] at hf
        cases hf
      · exact absurd hf hdn
  rw [← h, upper_eq_asciiUpper hascii]

/-! ## Capitals stay

A set of code points is a number with a bit for each, so that the whole table can be compared at
once. -/

/-- The bits `0, step, 2 * step, …`, so many of them. -/
def comb (step : Nat) : Nat → Nat
  | 0 => 0
  | count + 1 => comb step count <<< step ||| 1

theorem testBit_comb {step count i : Nat} (h : i < count) :
    (comb step count).testBit (step * i) = true := by
  induction count generalizing i with
  | zero => exact absurd h (Nat.not_lt_zero i)
  | succ count ih =>
    rw [comb, Nat.testBit_or]
    cases i with
    | zero => simp
    | succ i =>
      have hi := ih (Nat.lt_of_succ_lt_succ h)
      simp [Nat.mul_succ, Nat.testBit_shiftLeft, hi]

/-- All the bits of some numbers. -/
def union (sets : List Nat) : Nat :=
  sets.foldr (· ||| ·) 0

theorem testBit_union {sets : List Nat} {set n : Nat} (h : set ∈ sets) (hn : set.testBit n = true) :
    (union sets).testBit n = true := by
  induction sets with
  | nil => cases h
  | cons head rest ih =>
    rw [union, List.foldr_cons, Nat.testBit_or, Bool.or_eq_true]
    rcases List.mem_cons.mp h with rfl | h
    · exact .inl hn
    · exact .inr (ih h)

/-- The bits of a run that begins at some code point. -/
def CaseRun.bitsAt (r : CaseRun) (start : Nat) : Nat :=
  comb r.step ((r.last - r.first) / r.step + 1) <<< start

theorem CaseRun.testBit_bitsAt {r : CaseRun} {n : Nat} (hn : r.holds n = true) (start : Nat) :
    (r.bitsAt start).testBit (start + (n - r.first)) = true := by
  simp only [holds, Bool.and_eq_true, decide_eq_true_eq, beq_iff_eq] at hn
  obtain ⟨⟨hfirst, hlast⟩, hstep⟩ := hn
  have hsteps : n - r.first = r.step * ((n - r.first) / r.step) :=
    (Nat.mul_div_cancel' (Nat.dvd_of_mod_eq_zero hstep)).symm
  have hle : (n - r.first) / r.step ≤ (r.last - r.first) / r.step :=
    Nat.div_le_div_right (by omega)
  rw [bitsAt, Nat.testBit_shiftLeft, hsteps, Nat.add_sub_cancel_left,
    testBit_comb (Nat.lt_succ_of_le hle)]
  simp

/-- The letters a to z with their capitals. -/
def asciiRun : CaseRun := ⟨0x61, 0x7A, 1, -32⟩

/-- All letters with a capital of one character. -/
def allRuns : List CaseRun :=
  asciiRun :: upperRuns.toList

/-- The letters that are not capitals. -/
def smallLetters : Nat :=
  union (allRuns.map (fun r => r.bitsAt r.first) ++ upperSpecials.toList.map (1 <<< ·.1))

/-- The characters of the capital forms of these letters. -/
def capitals : Nat :=
  union (allRuns.map (fun r => r.bitsAt (r.first + r.shift).toNat)
    ++ (upperSpecials.toList.flatMap (·.2)).map (1 <<< ·))

/-- No capital is one of the letters that have another capital form. -/
theorem smallLetters_and_capitals : smallLetters &&& capitals = 0 := by
  decide +kernel

theorem allRuns_start : allRuns.all (fun r => 0 ≤ r.first + r.shift) = true := by
  decide +kernel

theorem testBit_smallLetters {r : CaseRun} (hr : r ∈ allRuns) {n : Nat} (hn : r.holds n = true) :
    smallLetters.testBit n = true := by
  have hfirst : r.first ≤ n := by
    simp only [CaseRun.holds, Bool.and_eq_true, decide_eq_true_eq] at hn
    exact hn.1.1
  have hbit := r.testBit_bitsAt hn r.first
  rw [Nat.add_sub_cancel' hfirst] at hbit
  exact testBit_union (List.mem_append_left _ (List.mem_map.mpr ⟨r, hr, rfl⟩)) hbit

theorem testBit_capitals {r : CaseRun} (hr : r ∈ allRuns) {n : Nat} (hn : r.holds n = true) :
    capitals.testBit (n + r.shift).toNat = true := by
  have hfirst : r.first ≤ n := by
    simp only [CaseRun.holds, Bool.and_eq_true, decide_eq_true_eq] at hn
    exact hn.1.1
  have hstart : 0 ≤ r.first + r.shift := by simpa using List.all_eq_true.mp allRuns_start r hr
  have hbit := r.testBit_bitsAt hn (r.first + r.shift).toNat
  have hmoved : (r.first + r.shift).toNat + (n - r.first) = (n + r.shift).toNat := by omega
  rw [hmoved] at hbit
  exact testBit_union (List.mem_append_left _ (List.mem_map.mpr ⟨r, hr, rfl⟩)) hbit

theorem not_small_of_capital {n : Nat} (h : capitals.testBit n = true) :
    smallLetters.testBit n = false := by
  have hboth : (smallLetters &&& capitals).testBit n = false := by
    rw [smallLetters_and_capitals, Nat.zero_testBit]
  rwa [Nat.testBit_and, h, Bool.and_true] at hboth

/-- The ASCII mapping moves the letters of its run. -/
theorem toUpper_of_isAscii {c : Char} (h : isAscii c = true) : c.toUpper = c ∨
    asciiRun.holds c.toNat = true ∧ c.toUpper = asciiRun.move c.toNat := by
  refine of_isAscii h ?_
  decide +kernel

/-- A character in none of the tables is its own capital form. -/
theorem upperChar_of_not_small {c : Char} (h : smallLetters.testBit c.toNat = false) :
    upperChar c = [c] := by
  have hruns : ∀ r ∈ allRuns, r.holds c.toNat = false := by
    intro r hr
    cases hholds : r.holds c.toNat with
    | false => rfl
    | true =>
      rw [testBit_smallLetters hr hholds] at h
      cases h
  unfold upperChar
  split
  · next hascii =>
    rcases toUpper_of_isAscii hascii with hsame | ⟨hholds, -⟩
    · rw [hsame]
    · rw [hruns asciiRun List.mem_cons_self] at hholds
      cases hholds
  · split
    · next entry image hfind =>
      have hkey : entry = c.toNat := by simpa using Array.find?_some hfind
      have hmem := Array.mem_toList_iff.mpr (Array.mem_of_find?_eq_some hfind)
      have hbit : (1 <<< c.toNat).testBit c.toNat = true := by simp
      have hset := List.mem_append_right (allRuns.map fun r => r.bitsAt r.first)
        (List.mem_map_of_mem (f := (1 <<< ·.1)) hmem)
      rw [smallLetters, testBit_union hset (hkey ▸ hbit)] at h
      cases h
    · split
      · next run hfind =>
        have hholds := Array.find?_some hfind
        have hmem := Array.mem_toList_iff.mpr (Array.mem_of_find?_eq_some hfind)
        rw [hruns run (List.mem_cons_of_mem _ hmem)] at hholds
        cases hholds
      · rfl

/-- A capital, as a character, is its own capital form. -/
theorem upperChar_ofNat {n : Nat} (h : capitals.testBit n = true) :
    upperChar (Char.ofNat n) = [Char.ofNat n] := by
  by_cases hvalid : n.isValidChar
  · exact upperChar_of_not_small (by rw [toNat_ofNat hvalid]; exact not_small_of_capital h)
  · rw [Char.ofNat, dif_neg hvalid]
    rfl

/-- **The characters of a capital form are capitals.** -/
theorem upperChar_of_mem {c d : Char} (h : d ∈ upperChar c) : upperChar d = [d] := by
  by_cases hsame : upperChar c = [c]
  · rw [hsame, List.mem_singleton] at h
    rw [h, hsame]
  · unfold upperChar at h hsame
    split at h
    · rename_i hascii
      rw [List.mem_singleton] at h
      rcases toUpper_of_isAscii hascii with heq | ⟨hholds, hmove⟩
      · rw [if_pos hascii, heq] at hsame
        exact absurd rfl hsame
      · rw [h, hmove]
        exact upperChar_ofNat (testBit_capitals List.mem_cons_self hholds)
    · rename_i hascii
      rw [if_neg hascii] at hsame
      split at h
      · next entry image hfind =>
        obtain ⟨n, hn, rfl⟩ := List.mem_map.mp h
        have hmem := Array.mem_toList_iff.mpr (Array.mem_of_find?_eq_some hfind)
        have himage : n ∈ upperSpecials.toList.flatMap (·.2) := List.mem_flatMap.mpr ⟨_, hmem, hn⟩
        have hset := List.mem_append_right (allRuns.map fun r => r.bitsAt (r.first + r.shift).toNat)
          (List.mem_map_of_mem (f := (1 <<< ·)) himage)
        exact upperChar_ofNat (testBit_union hset (by simp))
      · next hnone =>
        rw [hnone] at hsame
        split at h
        · next run hfind =>
          rw [List.mem_singleton] at h
          have hholds := Array.find?_some hfind
          have hmem := Array.mem_toList_iff.mpr (Array.mem_of_find?_eq_some hfind)
          rw [h]
          exact upperChar_ofNat (testBit_capitals (List.mem_cons_of_mem _ hmem) hholds)
        · next hnone' =>
          rw [hnone'] at hsame
          exact absurd rfl hsame

/-- Characters that are their own capital forms stay as they are. -/
theorem flatMap_upperChar {cs : List Char} (h : ∀ c ∈ cs, upperChar c = [c]) :
    cs.flatMap upperChar = cs := by
  induction cs with
  | nil => rfl
  | cons c cs ih =>
    obtain ⟨hc, hcs⟩ := List.forall_mem_cons.mp h
    rw [List.flatMap_cons, hc, ih hcs, List.singleton_append]

/-- The characters of a text in capitals are their own capital forms. -/
theorem upperChar_of_mem_upper {s : String} {d : Char} (h : d ∈ (upper s).toList) :
    upperChar d = [d] := by
  rw [upper, String.toList_ofList] at h
  obtain ⟨c, -, hc⟩ := List.mem_flatMap.mp h
  exact upperChar_of_mem hc

/-- **Capitals stay as they are.** -/
theorem upper_upper (s : String) : upper (upper s) = upper s := by
  rw [upper, flatMap_upperChar fun _ => upperChar_of_mem_upper, String.ofList_toList]

end MeasureSql.Text
