import MeasureSql.Proofs.Sql.Signs
import MeasureSql.Render.Expr

/-!
# Literals as operands

The text of a literal is one operand, but for the sign of a negative number, which is an operator.

## Main definitions

* `Sql.Reading.signed` — the tree of a number that may have a sign.
* `Rendering.literalTree` — the tree of a literal.

## Main results

* `Rendering.text_literalTree` — the tree of a literal has the text that is rendered.
* `Rendering.plain_literalTree` — the tree of a literal can be written.
-/

namespace MeasureSql

namespace Sql.Reading

/-! ## Operands from characters -/

/-- No word of letters has a character that is no letter. -/
theorem asciiUpper_ne_of_not_isAlpha {text : String} {c : Char} (hmem : c ∈ text.toList)
    (hc : c.isAlpha = false) {w : String} (hw : w.toList.all Char.isAlpha = true) :
    Text.asciiUpper text ≠ w := by
  intro heq
  have hupper : c.toUpper = c := by
    unfold Char.toUpper
    rw [dif_neg]
    intro hlower
    have hlow : (decide (c.val ≥ 'a'.val) && decide (c.val ≤ 'z'.val)) = true := by
      simpa using hlower
    change (c.isUpper || (decide (c.val ≥ 'a'.val) && decide (c.val ≤ 'z'.val))) = false at hc
    rw [hlow, Bool.or_true] at hc
    cases hc
  have hmem' : c ∈ w.toList := by
    rw [← heq, Text.asciiUpper, String.toList_ofList, ← hupper]
    exact List.mem_map_of_mem hmem
  rw [List.all_eq_true.mp hw c hmem'] at hc
  cases hc

/-- No keyword has a character that is no letter. -/
theorem wordSign_of_not_isAlpha {text : String} {c : Char} (hmem : c ∈ text.toList)
    (hc : c.isAlpha = false) : wordSign text = .operand text := by
  rw [wordSign]
  split
  all_goals first
    | rfl
    | next heq => exact absurd heq (asciiUpper_ne_of_not_isAlpha hmem hc (by decide +kernel))

theorem isOperand_of_absorbAll {cs : List Char} (run : List Char)
    (h : absorbAll .between cs = some (.word run)) {c : Char} (hmem : c ∈ cs)
    (hc : c.isAlpha = false) : isOperand (String.ofList cs) = true := by
  have hword : wordSign (String.ofList cs) = .operand (String.ofList cs) :=
    wordSign_of_not_isAlpha (c := c) (by rwa [String.toList_ofList]) hc
  simp only [isOperand, String.toList_ofList, h, hword, beq_self_eq_true, Bool.and_self]

/-- An operand does not begin with a sign. -/
theorem head?_ne_of_isOperand {text : String} (h : isOperand text = true) :
    text.toList.head? ≠ some '-' := by
  intro hhead
  obtain ⟨cs, hcs⟩ := List.head?_eq_some_iff.mp hhead
  have hnone : absorbAll .between ('-' :: cs) = none := rfl
  simp [isOperand, hcs, hnone] at h

/-- The characters of numbers. -/
def isNumeralChar (c : Char) : Bool :=
  c.isDigit || c == '.'

theorem isAlpha_of_isNumeralChar {c : Char} (h : isNumeralChar c = true) : c.isAlpha = false := by
  simp only [isNumeralChar, Bool.or_eq_true, beq_iff_eq] at h
  rcases h with h | rfl
  · change (decide (c.val ≥ 48) && decide (c.val ≤ 57)) = true at h
    change (decide (c.val ≥ 65 ∧ c.val ≤ 90) ||
      (decide (c.val ≥ 97) && decide (c.val ≤ 122))) = false
    simp only [Bool.and_eq_true, Bool.or_eq_false_iff, Bool.and_eq_false_iff, decide_eq_true_eq,
      decide_eq_false_iff_not, ge_iff_le, UInt32.le_iff_toNat_le, UInt32.reduceToNat] at h ⊢
    omega
  · rfl

theorem closing?_of_isNumeralChar {c : Char} (h : isNumeralChar c = true) : closing? c = none := by
  unfold closing?
  split
  all_goals first
    | rfl
    | exact absurd h (by decide)

theorem isOperandChar_of_isNumeralChar {c : Char} (h : isNumeralChar c = true) :
    isOperandChar c = true := by
  simp only [isNumeralChar, Bool.or_eq_true, beq_iff_eq] at h
  rcases h with h | rfl
  · simp [isOperandChar, Char.isAlphanum, h]
  · rfl

theorem absorbAll_numeral {cs : List Char} (h : ∀ c ∈ cs, isNumeralChar c = true)
    (run : List Char) : absorbAll (.word run) cs = some (.word (cs.reverse ++ run)) := by
  induction cs generalizing run with
  | nil => rfl
  | cons c cs ih =>
    have hc := h c List.mem_cons_self
    have habsorb : absorb (.word run) c = some (.word (c :: run)) := by
      simp [absorb, closing?_of_isNumeralChar hc, isOperandChar_of_isNumeralChar hc]
    rw [absorbAll_cons, habsorb, Option.bind_some, ih fun d hd => h d (List.mem_cons_of_mem c hd)]
    simp

/-- Digits and points begin a run. -/
theorem absorbAll_between_numeral {cs : List Char} (hne : cs ≠ [])
    (h : ∀ c ∈ cs, isNumeralChar c = true) :
    absorbAll .between cs = some (.word cs.reverse) := by
  cases cs with
  | nil => exact absurd rfl hne
  | cons c cs =>
    have hc := h c List.mem_cons_self
    have habsorb : absorb .between c = some (.word [c]) := by
      simp [absorb, closing?_of_isNumeralChar hc, isOperandChar_of_isNumeralChar hc]
    rw [absorbAll_cons, habsorb, Option.bind_some,
      absorbAll_numeral fun d hd => h d (List.mem_cons_of_mem c hd)]
    simp

/-- Digits and points make an operand. -/
theorem isOperand_numeral {cs : List Char} (hne : cs ≠ [])
    (h : ∀ c ∈ cs, isNumeralChar c = true) : isOperand (String.ofList cs) = true := by
  obtain ⟨c, hc⟩ := List.exists_mem_of_ne_nil cs hne
  exact isOperand_of_absorbAll _ (absorbAll_between_numeral hne h) hc
    (isAlpha_of_isNumeralChar (h c hc))

/-- The text of a whole number: digits, and a sign before those of a negative one. -/
theorem exists_digits_int (n : Int) :
    ∃ ds : List Char, ds ≠ [] ∧ (∀ c ∈ ds, isNumeralChar c = true) ∧
      ((toString n).toList = ds ∨ (toString n).toList = '-' :: ds) := by
  have hdigits : ∀ k : Nat, ∀ c ∈ Nat.toDigits 10 k, isNumeralChar c = true := by
    intro k c hc
    simp [isNumeralChar, Nat.isDigit_of_mem_toDigits (by decide) (by decide) hc]
  by_cases hn : 0 ≤ n
  · exact ⟨_, Nat.toDigits_ne_nil, hdigits n.toNat, .inl (by simp [Int.repr_eq_if, hn])⟩
  · exact ⟨_, Nat.toDigits_ne_nil, hdigits (-n).toNat, .inr (by simp [Int.repr_eq_if, hn])⟩

/-- A number with an exponent is one operand, whatever the sign of the exponent. -/
theorem isOperand_scientific (cs : List Char) (hne : cs ≠ [])
    (h : ∀ c ∈ cs, isNumeralChar c = true) (exponent : Int) :
    isOperand (String.ofList (cs ++ 'e' :: (toString exponent).toList)) = true := by
  obtain ⟨c, hc⟩ := List.exists_mem_of_ne_nil cs hne
  have hletter : absorb (.word cs.reverse) 'e' = some (.word ('e' :: cs.reverse)) := by
    simp only [absorb, closing?]
    rfl
  have hawaits : awaitsExponent ('e' :: cs.reverse) = true := by
    have hall : cs.reverse.all (fun d => d.isDigit || d == '.') = true := by
      simpa [isNumeralChar] using h
    simp [awaitsExponent, hne, hall]
  have hsign :
      absorb (.word ('e' :: cs.reverse)) '-' = some (.word ('-' :: 'e' :: cs.reverse)) := by
    simp [absorb, closing?, hawaits]
  obtain ⟨ds, -, hds, hexponent⟩ := exists_digits_int exponent
  rcases hexponent with hexponent | hexponent
  · refine isOperand_of_absorbAll (ds.reverse ++ 'e' :: cs.reverse) ?_
      (List.mem_append_left _ hc) (isAlpha_of_isNumeralChar (h c hc))
    rw [absorbAll_append, absorbAll_between_numeral hne h, Option.bind_some, absorbAll_cons,
      hletter, Option.bind_some, hexponent, absorbAll_numeral hds]
  · refine isOperand_of_absorbAll (ds.reverse ++ '-' :: 'e' :: cs.reverse) ?_
      (List.mem_append_left _ hc) (isAlpha_of_isNumeralChar (h c hc))
    rw [absorbAll_append, absorbAll_between_numeral hne h, Option.bind_some, absorbAll_cons,
      hletter, Option.bind_some, hexponent, absorbAll_cons, hsign, Option.bind_some,
      absorbAll_numeral hds]

/-- A text in single quotes ends with its last quote: a quote inside it is written twice. -/
theorem absorbAll_doubled (cs run : List Char) :
    ∃ run', absorbAll (.quoted '\x27' run) (Text.doubled (· == '\x27') cs ++ ['\x27']) =
      some (.word run') := by
  induction cs generalizing run with
  | nil => exact ⟨_, rfl⟩
  | cons c cs ih =>
    by_cases hc : c = '\x27'
    · subst hc
      exact ih ('\x27' :: '\x27' :: run)
    · obtain ⟨run', hrun'⟩ := ih (c :: run)
      have habsorb : absorb (.quoted '\x27' run) c = some (.quoted '\x27' (c :: run)) := by
        simp [absorb, hc]
      refine ⟨run', ?_⟩
      rw [Text.doubled, if_neg (by simpa using hc), List.cons_append, absorbAll_cons, habsorb,
        Option.bind_some, hrun']

theorem isOperand_quoteString (d : Dialect) (s : String) : isOperand (d.quoteString s) = true := by
  have hplain : isOperand (quoteSingle s) = true := by
    obtain ⟨run, hrun⟩ := absorbAll_doubled s.toList ['\x27']
    exact isOperand_of_absorbAll run (c := '\x27') hrun List.mem_cons_self rfl
  have hnational : isOperand ("N" ++ quoteSingle s) = true := by
    obtain ⟨run, hrun⟩ := absorbAll_doubled s.toList ['\x27', 'N']
    have htext : "N" ++ quoteSingle s =
        String.ofList ('N' :: '\x27' :: (Text.doubled (· == '\x27') s.toList ++ ['\x27'])) := by
      rw [← String.toList_inj]
      simp [quoteSingle, quoteBetween]
    rw [htext]
    exact isOperand_of_absorbAll run (c := '\x27') hrun (by simp) rfl
  cases d with
  | tsql => exact hnational
  | _ => exact hplain

/-! ## Numbers -/

/-- The tree of a number that may have a sign. -/
def signed (text : String) : Tree :=
  match text.toList with
  | '-' :: digits => .neg (.operand (String.ofList digits))
  | _ => .operand text

theorem text_signed (text : String) : (signed text).text = text := by
  rw [signed]
  split
  · next digits hdigits =>
    rw [Tree.text, Tree.text, ← String.toList_inj, hdigits]
    simp
  · rfl

/-- A sign belongs to the number after it. -/
theorem plain_signed {cs : List Char} (h : isOperand (String.ofList cs) = true) {text : String}
    (htext : text.toList = cs ∨ text.toList = '-' :: cs) : (signed text).Plain := by
  have hhead := head?_ne_of_isOperand h
  rw [signed]
  split
  · next digits hdigits =>
    rcases htext with htext | htext
    · rw [String.toList_ofList, ← htext, hdigits] at hhead
      exact absurd rfl hhead
    · obtain ⟨-, rfl⟩ := List.cons.inj (hdigits.symm.trans htext)
      exact ⟨h, hhead⟩
  · next hne =>
    rcases htext with htext | htext
    · rw [← htext, String.ofList_toList] at h
      exact h
    · exact absurd htext (hne cs)

/-- The digits of a number are digits. -/
theorem isNumeralChar_shortest {tie : Tie} {m : Nat} {e : Int} {c : Char}
    (h : c ∈ (Double.shortest tie m e).digits) : isNumeralChar c = true := by
  have hmem : ∃ d, c ∈ Nat.toDigits 10 d := by
    refine ⟨_, List.mem_reverse.mp ((List.dropWhile_sublist _).subset (List.mem_reverse.mp h))⟩
  obtain ⟨d, hd⟩ := hmem
  simp [isNumeralChar, Nat.isDigit_of_mem_toDigits (by decide) (by decide) hd]

/-- The text of a number without a sign: digits and points, perhaps with an exponent. -/
inductive IsMagnitude : List Char → Prop
  | numeral {cs : List Char} (hne : cs ≠ []) (h : ∀ c ∈ cs, isNumeralChar c = true) :
      IsMagnitude cs
  | scientific {cs : List Char} (hne : cs ≠ []) (h : ∀ c ∈ cs, isNumeralChar c = true)
      (exponent : Int) : IsMagnitude (cs ++ 'e' :: (toString exponent).toList)

theorem IsMagnitude.isOperand {cs : List Char} (h : IsMagnitude cs) :
    isOperand (String.ofList cs) = true := by
  cases h with
  | numeral hne h => exact isOperand_numeral hne h
  | scientific hne h exponent => exact isOperand_scientific _ hne h exponent

/-- A number is no word. -/
theorem IsMagnitude.exists_isNumeralChar {cs : List Char} (h : IsMagnitude cs) :
    ∃ c ∈ cs, isNumeralChar c = true := by
  cases h with
  | numeral hne h =>
    obtain ⟨c, hc⟩ := List.exists_mem_of_ne_nil _ hne
    exact ⟨c, hc, h c hc⟩
  | scientific hne h exponent =>
    obtain ⟨c, hc⟩ := List.exists_mem_of_ne_nil _ hne
    exact ⟨c, List.mem_append_left _ hc, h c hc⟩

theorem isMagnitude_magnitude (m : Nat) (e : Int) : IsMagnitude (Layout.sql.magnitude m e) := by
  have hdigits : ∀ c ∈ (Double.shortest Layout.sql.tie m e).digits, isNumeralChar c = true :=
    fun c hc => isNumeralChar_shortest hc
  unfold Layout.magnitude
  generalize Double.shortest Layout.sql.tie m e = d at hdigits
  have hzeros : ∀ (n : Int), ∀ c ∈ Layout.zeros n, isNumeralChar c = true := by
    intro n c hc
    rw [List.eq_of_mem_replicate hc]
    rfl
  have hpoint : ['.', '0'].all isNumeralChar = true := rfl
  simp only
  split
  · rw [Layout.positional]
    simp only [Layout.sql, if_true]
    split
    · refine .numeral (by simp) fun c hc => ?_
      simp only [List.mem_append] at hc
      rcases hc with (hc | hc) | hc
      · exact hdigits c hc
      · exact hzeros _ c hc
      · exact List.all_eq_true.mp hpoint c hc
    · split
      · refine .numeral (by simp) fun c hc => ?_
        simp only [List.mem_append, List.mem_singleton] at hc
        rcases hc with (hc | rfl) | hc
        · exact hdigits c (List.mem_of_mem_take hc)
        · rfl
        · exact hdigits c (List.mem_of_mem_drop hc)
      · refine .numeral (by simp) fun c hc => ?_
        simp only [List.mem_append] at hc
        rcases hc with (hc | hc) | hc
        · exact List.all_eq_true.mp hpoint c (by simpa [or_comm] using hc)
        · exact hzeros _ c hc
        · exact hdigits c hc
  · rw [Layout.scientific]
    split
    · exact .numeral (by simp) (List.all_eq_true.mp (by decide))
    · next c hc =>
      rw [hc] at hdigits
      exact .scientific (List.cons_ne_nil c []) hdigits _
    · next c rest hne hc =>
      rw [hc] at hdigits
      refine .scientific (List.cons_ne_nil c ('.' :: rest)) (fun d hd => ?_) _
      simp only [List.mem_cons] at hd
      rcases hd with rfl | rfl | hd
      · exact hdigits d List.mem_cons_self
      · rfl
      · exact hdigits d (List.mem_cons_of_mem c hd)

/-- The text of a whole number, with or without a sign. -/
theorem exists_magnitude_int (n : Int) :
    ∃ cs, IsMagnitude cs ∧ ((toString n).toList = cs ∨ (toString n).toList = '-' :: cs) := by
  obtain ⟨ds, hne, hds, htext⟩ := exists_digits_int n
  exact ⟨ds, .numeral hne hds, htext⟩

/-- The text of a number, with or without a sign; a word stands for what has no digits. -/
theorem exists_magnitude_double (x : Double) :
    ∃ cs, (IsMagnitude cs ∨ ∃ w ∈ ["NaN", "inf"], cs = w.toList) ∧
      ((x.write .sql).toList = cs ∨ (x.write .sql).toList = '-' :: cs) := by
  cases x with
  | nan => exact ⟨_, .inr ⟨"NaN", by simp, rfl⟩, .inl rfl⟩
  | infinite negative =>
    refine ⟨_, .inr ⟨"inf", by simp, rfl⟩, ?_⟩
    cases negative with
    | false => exact .inl rfl
    | true => exact .inr rfl
  | finite negative m e =>
    have hbody : IsMagnitude
        (if m = 0 then (if Layout.sql.keepsPoint then ['0', '.', '0'] else ['0'])
          else Layout.sql.magnitude m e) := by
      split
      · exact .numeral (by decide) (List.all_eq_true.mp (by decide))
      · exact isMagnitude_magnitude m e
    refine ⟨_, .inl hbody, ?_⟩
    cases negative with
    | false => exact .inl (String.toList_ofList)
    | true => exact .inr (String.toList_ofList)

theorem plain_signed_int (n : Int) : (signed (toString n)).Plain := by
  obtain ⟨cs, hcs, htext⟩ := exists_magnitude_int n
  exact plain_signed hcs.isOperand htext

theorem plain_signed_double (x : Double) : (signed (x.write .sql)).Plain := by
  have hword : ∀ w ∈ ["NaN", "inf"], isOperand (String.ofList w.toList) = true := by
    decide +kernel
  obtain ⟨cs, hcs | ⟨w, hw, rfl⟩, htext⟩ := exists_magnitude_double x
  · exact plain_signed hcs.isOperand htext
  · exact plain_signed (hword w hw) htext

end Sql.Reading

namespace Rendering

open Dax Sql.Reading

/-- The tree of a literal. -/
def literalTree (d : Dialect) : Literal → Tree
  | .integer n => signed (toString n)
  | .float x => signed (x.write .sql)
  | value => .operand (renderLiteral d value)

/-- **The tree of a literal has the text that is rendered.** -/
theorem text_literalTree (d : Dialect) (value : Literal) :
    (literalTree d value).text = renderLiteral d value := by
  cases value with
  | integer n => exact text_signed _
  | float x => exact text_signed _
  | _ => rfl

/-- The tree of a literal is one operand, or one with a sign. -/
theorem exists_literalTree (d : Dialect) (value : Literal) :
    ∃ text, literalTree d value = .operand text ∨ literalTree d value = .neg (.operand text) := by
  have hsigned : ∀ text, ∃ digits, signed text = .operand digits ∨
      signed text = .neg (.operand digits) := by
    intro text
    rw [signed]
    split
    · exact ⟨_, .inr rfl⟩
    · exact ⟨_, .inl rfl⟩
  cases value with
  | integer n => exact hsigned _
  | float x => exact hsigned _
  | _ => exact ⟨_, .inl rfl⟩

/-- **The tree of a literal can be written.** -/
theorem plain_literalTree (d : Dialect) (value : Literal) : (literalTree d value).Plain := by
  cases value with
  | integer n => exact plain_signed_int n
  | float x => exact plain_signed_double x
  | string s => exact isOperand_quoteString d s
  | boolean b =>
    show isOperand (d.boolean b) = true
    cases d <;> cases b <;> decide +kernel
  | blank =>
    show isOperand Dialect.null = true
    decide +kernel

end Rendering

end MeasureSql
