import MeasureSql.Validation.Report

/-!
# Runs of blanks

A normalized text has the same words as before with one space between any two.  So it has the same
characters but for blanks, and ends in the same word.

## Main definitions

* `runs` — the words of a text as lists of characters.
* `EndsIn` — a text ends in a word.

## Main results

* `runs_append_cons` — words are split at a blank; all that is known of them follows from this.
* `filter_normalize`, `endsIn_normalize` — what a normalized text keeps.
-/

namespace MeasureSql

namespace Text

/-- The words of a text as lists of characters. -/
def runs (cs : List Char) : List (List Char) :=
  (cs.splitOnP isBlank).filter (!·.isEmpty)

variable {c : Char} {cs run : List Char}

/-- **Words are split at a blank.** -/
theorem runs_append_cons (hc : isBlank c = true) (xs ys : List Char) :
    runs (xs ++ c :: ys) = runs xs ++ runs ys := by
  rw [runs, List.splitOnP_append_cons xs ys hc, List.filter_append, runs, runs]

/-- A text without blanks is one word. -/
theorem runs_of_printed (h : ∀ c ∈ cs, isBlank c = false) (ne : cs ≠ []) : runs cs = [cs] := by
  simp [runs, List.splitOnP_eq_singleton h, ne]

theorem map_toList_words (s : String) : (words s).map String.toList = runs s.toList := by
  rw [words, runs]
  induction s.toList.splitOnP isBlank with
  | nil => rfl
  | cons w ws ih => cases w <;> simpa using ih

/-- The words are made of the characters that are not blank. -/
theorem flatten_runs (cs : List Char) : (runs cs).flatten = cs.filter (!isBlank ·) := by
  rw [runs, List.flatten_filter_not_isEmpty]
  induction cs with
  | nil => rfl
  | cons c cs ih =>
    rw [List.splitOnP_cons_eq_if_modifyHead]
    split
    · next blank => simp [ih, blank]
    · next printed =>
      obtain ⟨w, ws, split⟩ := List.exists_cons_of_ne_nil (List.splitOnP_ne_nil isBlank cs)
      rw [split] at ih ⊢
      simpa [printed] using ih

theorem mem_dropWhile_isBlank (mem : c ∈ cs) (printed : isBlank c = false) :
    c ∈ cs.dropWhile isBlank := by
  rw [← List.takeWhile_append_dropWhile (p := isBlank) (l := cs), List.mem_append] at mem
  refine mem.resolve_left fun taken => ?_
  rw [List.all_eq_true.mp List.all_takeWhile c taken] at printed
  cases printed

/-- No character that can be seen is cut off at the ends. -/
theorem mem_trimChars (mem : c ∈ cs) (printed : isBlank c = false) : c ∈ trimChars cs := by
  rw [trimChars, List.mem_reverse]
  exact mem_dropWhile_isBlank (List.mem_reverse.mpr (mem_dropWhile_isBlank mem printed)) printed

/-- A text without blanks is not cut off. -/
theorem trim_of_printed {s : String} (h : ∀ c ∈ s.toList, isBlank c = false) : trim s = s := by
  have whole {cs : List Char} (hcs : ∀ c ∈ cs, isBlank c = false) : cs.dropWhile isBlank = cs := by
    cases cs with
    | nil => rfl
    | cons c cs => simp [hcs c (by simp)]
  rw [trim, trimChars, whole h, whole (by simpa using h), List.reverse_reverse,
    String.ofList_toList]

/-- A text ends in a word: it is the word, or a blank stands before it. -/
def EndsIn (run cs : List Char) : Prop :=
  cs = run ∨ ∃ before, ∃ blank, isBlank blank = true ∧ cs = before ++ blank :: run

/-- Every text ends in a word, which may be empty. -/
theorem exists_endsIn (cs : List Char) :
    ∃ run, (∀ c ∈ run, isBlank c = false) ∧ EndsIn run cs := by
  induction cs with
  | nil => exact ⟨[], by simp, .inl rfl⟩
  | cons c cs ih =>
    obtain ⟨run, printed, rfl | ⟨before, blank, hblank, rfl⟩⟩ := ih
    · cases hc : isBlank c with
      | true => exact ⟨cs, printed, .inr ⟨[], c, hc, rfl⟩⟩
      | false => exact ⟨c :: cs, List.forall_mem_cons.mpr ⟨hc, printed⟩, .inl rfl⟩
    · exact ⟨run, printed, .inr ⟨c :: before, blank, hblank, rfl⟩⟩

/-- The word that a text ends in is the last of its words. -/
theorem EndsIn.runs (h : EndsIn run cs) (printed : ∀ c ∈ run, isBlank c = false) (ne : run ≠ []) :
    ∃ before, Text.runs cs = before ++ [run] := by
  rcases h with rfl | ⟨before, blank, hblank, rfl⟩
  · exact ⟨[], runs_of_printed printed ne⟩
  · exact ⟨Text.runs before, by rw [runs_append_cons hblank, runs_of_printed printed ne]⟩

/-- Words with a space between any two. -/
theorem endsIn_intercalate (before : List (List Char)) (run : List Char) :
    EndsIn run ([' '].intercalate (before ++ [run])) := by
  induction before with
  | nil => exact .inl (by simp)
  | cons w ws ih =>
    have joined : [' '].intercalate (w :: ws ++ [run]) =
        w ++ ' ' :: [' '].intercalate (ws ++ [run]) := by
      cases ws <;> simp [List.intercalate]
    rw [joined]
    rcases ih with same | ⟨before, blank, hblank, same⟩
    · exact .inr ⟨w, ' ', by decide, by rw [same]⟩
    · exact .inr ⟨w ++ ' ' :: before, blank, hblank, by rw [same]; simp⟩

end Text

namespace Validation

open Text

theorem toList_normalize (sql : String) :
    (normalize sql).toList = [' '].intercalate (runs sql.toList) := by
  rw [normalize, String.toList_intercalate, map_toList_words]
  rfl

/-- A normalized text has the same characters but for blanks. -/
theorem filter_normalize (sql : String) :
    (normalize sql).toList.filter (!isBlank ·) = sql.toList.filter (!isBlank ·) := by
  have spaces (ws : List (List Char)) :
      ([' '].intercalate ws).filter (!isBlank ·) = ws.flatten.filter (!isBlank ·) := by
    have blank : isBlank ' ' = true := by decide
    induction ws with
    | nil => rfl
    | cons w ws ih => cases ws <;> simp_all [List.intercalate]
  rw [toList_normalize, spaces, flatten_runs, List.filter_filter]
  simp

/-- A normalized text ends in the same word. -/
theorem endsIn_normalize {sql : String} {run : List Char} (h : EndsIn run sql.toList)
    (printed : ∀ c ∈ run, isBlank c = false) (ne : run ≠ []) :
    EndsIn run (normalize sql).toList := by
  obtain ⟨before, same⟩ := h.runs printed ne
  rw [toList_normalize, same]
  exact endsIn_intercalate before run

end Validation

end MeasureSql
