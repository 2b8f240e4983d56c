import Mathlib.Data.List.Basic
import MeasureSql.Pattern.Template
import MeasureSql.Proofs.Text.LetterCase
import MeasureSql.Proofs.Validation.Balance
import MeasureSql.Proofs.Validation.Blanks

/-!
# How texts end

A text that ends in a comma or in one of the words `AND` and `OR` stops too early.  Whether it does
is seen from its end: what stands before a character that no word goes on over does not matter.

## Main definitions

* `endsWell` — a text does not stop too early.
* `isBreak`, `isClosing` — characters that end a word, and characters that may end a text.
* `isIdentifier`, `isConnective` — plain names, and names that are one of the two words.

## Main results

* `endsWell_append_cons`, `endsWell_append` — the end decides.
* `endsWell_of_isIdentifier` — names end well.
* `endsWell_normalize`, `endingIssues_eq_nil` — and nothing is said of a text that ends well.
-/

namespace MeasureSql.Validation

open Text

/-- The words that a text does not end in, backwards. -/
def connectives : List (List Char) := [['D', 'N', 'A'], ['R', 'O']]

/-- A text ends with a character that is neither a blank nor a comma, and not in one of the
words. -/
def endsWell (cs : List Char) : Bool :=
  cs.getLast?.any (fun c => !isBlank c && c != ',') &&
    !connectives.any fun backwards => startsWithWord backwards cs.reverse

/-! ## Words -/

/-- What follows a word is the rest of a text that begins with the word. -/
theorem map_capital_of_afterWord? {word cs rest : List Char} (h : afterWord? word cs = some rest) :
    ∃ found, cs = found ++ rest ∧ found.map capital = word := by
  induction word generalizing cs with
  | nil =>
    obtain rfl := Option.some.inj h
    exact ⟨[], rfl, rfl⟩
  | cons w word ih =>
    cases cs with
    | nil => cases h
    | cons c cs =>
      rw [afterWord?] at h
      split at h
      · next same =>
        obtain ⟨found, rfl, hfound⟩ := ih h
        exact ⟨c :: found, rfl, by simp [hfound, beq_iff_eq.mp same]⟩
      · cases h

/-- A word is not read across a character that is not one of its own. -/
theorem afterWord?_append_cons {word : List Char} {sep : Char} (hword : capital sep ∉ word)
    (xs ys : List Char) :
    afterWord? word (xs ++ sep :: ys) = (afterWord? word xs).map (· ++ sep :: ys) := by
  induction word generalizing xs with
  | nil => rfl
  | cons w word ih =>
    rw [List.mem_cons, not_or] at hword
    cases xs with
    | nil => simp [afterWord?, hword.1]
    | cons x xs =>
      rw [List.cons_append, afterWord?, afterWord?]
      split
      · exact ih hword.2 xs
      · rfl

/-- A word is sought before a character that ends words. -/
theorem startsWithWord_append_cons {word : List Char} {sep : Char} (hword : capital sep ∉ word)
    (hsep : isWordChar sep = false) (xs ys : List Char) :
    startsWithWord word (xs ++ sep :: ys) = startsWithWord word xs := by
  rw [startsWithWord, afterWord?_append_cons hword, startsWithWord]
  cases afterWord? word xs with
  | none => rfl
  | some rest => cases rest <;> simp [atWordEnd, hsep]

/-! ## The end decides -/

/-- A character that no word goes on over. -/
def isBreak (c : Char) : Bool :=
  !isWordChar c && connectives.all (!·.contains (capital c))

/-- **The end decides**: what stands before a break does not matter. -/
theorem endsWell_append_cons {sep : Char} (hsep : isBreak sep = true) {ys : List Char}
    (ne : ys ≠ []) (xs : List Char) : endsWell (xs ++ sep :: ys) = endsWell ys := by
  have other : isWordChar sep = false ∧ ∀ word ∈ connectives, capital sep ∉ word := by
    simpa [isBreak] using hsep
  have reversed : (xs ++ sep :: ys).reverse = ys.reverse ++ sep :: xs.reverse := by simp
  have last : (xs ++ sep :: ys).getLast? = ys.getLast? := by
    rw [List.getLast?_append_of_ne_nil _ (by simp), List.getLast?_cons_of_ne_nil ne]
  have words : connectives.any (startsWithWord · (ys.reverse ++ sep :: xs.reverse)) =
      connectives.any (startsWithWord · ys.reverse) := by
    rw [Bool.eq_iff_iff, List.any_eq_true, List.any_eq_true]
    refine exists_congr fun word => and_congr_right fun mem => ?_
    rw [startsWithWord_append_cons (other.2 word mem) other.1]
  rw [endsWell, last, reversed, words, endsWell]

/-- A character that may end a text. -/
def isClosing (c : Char) : Bool :=
  !isBlank c && c != ',' && connectives.all (fun word => word.head? != some (capital c))

theorem startsWithWord_cons_of_ne {w c : Char} (h : w ≠ capital c) (word cs : List Char) :
    startsWithWord (w :: word) (c :: cs) = false := by
  simp [startsWithWord, afterWord?, h.symm]

/-- The last character decides, if no word of the two ends in it. -/
theorem endsWell_append {c : Char} (hc : isClosing c = true) (xs : List Char) :
    endsWell (xs ++ [c]) = true := by
  have other : (isBlank c = false ∧ c ≠ ',') ∧ 'D' ≠ capital c ∧ 'R' ≠ capital c := by
    simpa [isClosing, connectives] using hc
  simp [endsWell, connectives, startsWithWord_cons_of_ne, other]

theorem endsWell_of_isClosing {cs : List Char} (ne : cs ≠ []) (h : ∀ c ∈ cs, isClosing c = true) :
    endsWell cs = true := by
  rw [← List.dropLast_concat_getLast ne]
  exact endsWell_append (h _ (List.getLast_mem ne)) _

/-! ## Names -/

/-- A plain name: letters, digits and underscores from ASCII. -/
def isIdentifier (name : String) : Bool :=
  !name.isEmpty && name.toList.all Template.isNamePart

theorem isIdentifier_iff {name : String} : isIdentifier name = true ↔
    name ≠ "" ∧ ∀ c ∈ name.toList, Template.isNamePart c = true := by
  simp [isIdentifier]

/-- Is a name one of the two words in any case? -/
def isConnective (name : String) : Bool :=
  ["AND", "OR"].contains (asciiUpper name)

theorem isAscii_of_isNamePart {c : Char} (h : Template.isNamePart c = true) : isAscii c = true := by
  simp only [Template.isNamePart, Char.isAlphanum, Bool.or_eq_true, beq_iff_eq] at h
  have code : c.toNat < 128 := by
    rcases h with (alpha | digit) | rfl
    · have letter := toNat_of_isAlpha alpha
      omega
    · have numeral := toNat_of_isDigit digit
      omega
    · decide
  exact decide_eq_true (UInt32.lt_iff_toNat_lt.mpr code)

/-- The characters of plain names are parts of words, and nothing else. -/
theorem isNamePart_cases {c : Char} (h : Template.isNamePart c = true) :
    isWordChar c = true ∧ isNeutral c = true ∧ isBlank c = false ∧ c ≠ ',' ∧
      capital c = c.toUpper := by
  have ascii := isAscii_of_isNamePart h
  revert h
  refine of_isAscii ascii ?_
  decide +kernel

/-- A plain text that begins with a word is the word. -/
theorem map_toUpper_of_startsWithWord {word cs : List Char}
    (plain : ∀ c ∈ cs, Template.isNamePart c = true) (h : startsWithWord word cs = true) :
    cs.map Char.toUpper = word := by
  cases after : afterWord? word cs with
  | none => simp [startsWithWord, after] at h
  | some rest =>
    obtain ⟨found, rfl, hfound⟩ := map_capital_of_afterWord? after
    -- No word character follows the word, but all characters of the text are word characters.
    obtain rfl : rest = [] := by
      cases rest with
      | nil => rfl
      | cons c cs =>
        have part : isWordChar c = true := (isNamePart_cases (plain c (by simp))).1
        simp [startsWithWord, after, atWordEnd, part] at h
    rw [List.append_nil] at plain ⊢
    rw [← hfound]
    exact List.map_congr_left fun c hc => (isNamePart_cases (plain c hc)).2.2.2.2.symm

/-- **Names end well**, but for the two words. -/
theorem endsWell_of_isIdentifier {name : String} (h : isIdentifier name = true)
    (other : isConnective name = false) : endsWell name.toList = true := by
  obtain ⟨ne, plain⟩ := isIdentifier_iff.mp h
  have reversed : ∀ c ∈ name.toList.reverse, Template.isNamePart c = true := by
    simpa using plain
  have words : connectives.any (startsWithWord · name.toList.reverse) = false := by
    rw [Bool.eq_false_iff, Ne, List.any_eq_true]
    rintro ⟨word, mem, starts⟩
    have same := map_toUpper_of_startsWithWord reversed starts
    rw [List.map_reverse, List.reverse_eq_iff] at same
    have backwards : ∀ word ∈ connectives, String.ofList word.reverse ∈ ["AND", "OR"] := by decide
    rw [isConnective, List.contains_eq_mem, decide_eq_false_iff_not] at other
    exact other (by rw [asciiUpper, same]; exact backwards word mem)
  have last : name.toList.getLast?.any (fun c => !isBlank c && c != ',') = true := by
    have ne' : name.toList ≠ [] := by simpa using ne
    rw [List.getLast?_eq_some_getLast ne', Option.any_some]
    have part := isNamePart_cases (plain _ (List.getLast_mem ne'))
    simp [part]
  simp [endsWell, last, words]

/-! ## Blanks -/

/-- A blank ends words. -/
theorem isBreak_of_isBlank {c : Char} (h : isBlank c = true) : isBreak c = true := by
  cases ascii : isAscii c with
  | true =>
    revert h
    refine of_isAscii ascii ?_
    decide +kernel
  | false =>
    have other : wordDiff.contains c = false :=
      not_contains_of_isBlank (by decide +kernel) (by decide +kernel) h ascii
    have noLetter : ∀ n ∈ wideBlanks,
        connectives.all (!·.contains (capital (Char.ofNat n))) = true := by
      decide +kernel
    have code := noLetter c.toNat (mem_wideBlanks h ascii)
    rw [Char.ofNat_toNat] at code
    simp only [isBreak, isWordChar, ascii, not_alphabetic_of_isBlank h ascii, other, code,
      Bool.false_eq_true, if_false, bne_self_eq_false, Bool.not_false, Bool.and_self]

/-- A text ends as well as the word that it ends in. -/
theorem endsWell_of_endsIn {run cs : List Char} (h : EndsIn run cs) (ne : run ≠ []) :
    endsWell cs = endsWell run := by
  rcases h with rfl | ⟨before, blank, hblank, rfl⟩
  · rfl
  · exact endsWell_append_cons (isBreak_of_isBlank hblank) ne before

/-- **A normalized text ends well** if the text does. -/
theorem endsWell_normalize {sql : String} (h : endsWell sql.toList = true) :
    endsWell (normalize sql).toList = true := by
  obtain ⟨run, printed, ends⟩ := exists_endsIn sql.toList
  have ne : run ≠ [] := by
    rintro rfl
    rcases ends with same | ⟨before, blank, hblank, same⟩
    · simp [same, endsWell] at h
    · simp [same, endsWell, hblank] at h
  rw [endsWell_of_endsIn (endsIn_normalize ends printed ne) ne]
  rwa [endsWell_of_endsIn ends ne] at h

/-! ## What is said of them -/

/-- The last character of a text that ends well. -/
theorem exists_last {cs : List Char} (h : endsWell cs = true) :
    ∃ before c, cs = before ++ [c] ∧ isBlank c = false ∧ c ≠ ',' := by
  rw [endsWell, Bool.and_eq_true] at h
  rcases List.eq_nil_or_concat cs with rfl | ⟨before, c, rfl⟩
  · simp at h
  · exact ⟨before, c, by simp, by simpa using h.1⟩

/-- **Nothing is said of the end of a text that ends well.** -/
theorem endingIssues_eq_nil {sql : String} (h : endsWell sql.toList = true) :
    endingIssues sql = [] := by
  obtain ⟨before, c, text, printed, other⟩ := exists_last h
  have last : lastFirst sql = sql.toList.reverse := by
    simp [lastFirst, text, printed]
  have noComma : endsWithComma sql = false := by
    simp [endsWithComma, last, text, other]
  have noWord : endsWithConnective sql = false := by
    rw [endsWell, Bool.and_eq_true, Bool.not_eq_true'] at h
    rw [endsWithConnective, last]
    exact h.2
  simp [endingIssues, noComma, noWord]

/-- A text that ends well is not empty. -/
theorem isEmpty_trim {sql : String} (h : endsWell sql.toList = true) :
    (trim sql).isEmpty = false := by
  obtain ⟨before, c, text, printed, -⟩ := exists_last h
  have mem : c ∈ (trim sql).toList := by
    rw [trim, String.toList_ofList]
    exact mem_trimChars (by simp [text]) printed
  rw [Bool.eq_false_iff, Ne, String.isEmpty_iff]
  intro empty
  simp [empty] at mem

end MeasureSql.Validation
