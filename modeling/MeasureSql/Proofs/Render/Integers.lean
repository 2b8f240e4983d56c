import MeasureSql.Proofs.Number.Rounding
import MeasureSql.Proofs.Render.Definition
import MeasureSql.Proofs.Render.Reread

/-!
# Whole numbers keep their value

The text of a whole number is a sign, if it is negative, and digits.  The parser takes the sign for
an operator and reads the digits alone, so the digits of the least number of 64 bits, one more than
the greatest, do not fit any more and become a float.  Every other number of 64 bits is its own SQL.

## Main definitions

* `Sql.numeralValue?` — the number that the text of a numeral stands for.

## Main results

* `Sql.numeralValue?_toString` — the text of a whole number stands for it.
* `Engine.query_of_cuts` — the query of a text whose SQL depends on nothing else.
* `Engine.query_toString` — the query of the text of a whole number.
-/

namespace MeasureSql

open Dax

/-- The text of a negative number is a minus sign before that of its opposite. -/
theorem toString_of_neg {n : Int} (negative : n < 0) : toString n = "-" ++ toString (-n) := by
  have whole (k : Int) : toString k = k.repr := rfl
  rw [whole, whole, Int.repr_eq_if, Int.repr_eq_if, if_neg (by omega), if_pos (by omega)]

namespace Sql

/-- The number that the text of a numeral stands for, as a decimal: a sign or none, digits with a
point among them or none, and an exponent or none. -/
def numeralValue? (text : String) : Option ℚ :=
  let (negative, body) := splitSign text.toList
  let whole := body.takeWhile Char.isDigit
  let rest := body.dropWhile Char.isDigit
  let (fraction, tail) := match rest with
    | '.' :: after => (after.takeWhile Char.isDigit, after.dropWhile Char.isDigit)
    | _ => ([], rest)
  if whole.isEmpty then none
  else (Double.readExponent? tail).map fun (e : Int) =>
    let magnitude : ℚ := digitsValue (whole ++ fraction) * 10 ^ (e - fraction.length)
    if negative then -magnitude else magnitude

/-- The value of digits behind a sign, if there is one. -/
theorem numeralValue?_digits {text : String} {negative : Bool} {digits : List Char}
    (split : splitSign text.toList = (negative, digits)) (nonempty : digits ≠ [])
    (all : ∀ c ∈ digits, c.isDigit = true) :
    numeralValue? text =
      some (if negative then -(digitsValue digits : ℚ) else digitsValue digits) := by
  have run : digits.takeWhile Char.isDigit = digits := List.takeWhile_eq_self_iff.mpr all
  have rest : digits.dropWhile Char.isDigit = [] := List.dropWhile_eq_nil_iff.mpr all
  simp [numeralValue?, split, run, rest, nonempty, Double.readExponent?]

/-- **The text of a whole number stands for it.** -/
theorem numeralValue?_toString (n : Int) : numeralValue? (toString n) = some (n : ℚ) := by
  have all (k : Nat) : ∀ c ∈ Nat.toDigits 10 k, c.isDigit = true :=
    fun c => isDigit_of_mem_toDigits
  by_cases nonnegative : 0 ≤ n
  · have split : splitSign (toString n).toList = (false, Nat.toDigits 10 n.toNat) := by
      rw [toString_of_nonneg nonnegative, String.toList_ofList]
      obtain ⟨c, cs, digits⟩ := List.exists_cons_of_ne_nil (Nat.toDigits_ne_nil (n := n.toNat))
      rw [digits]
      exact splitSign_of_digit (all n.toNat c (by simp [digits]))
    rw [numeralValue?_digits split Nat.toDigits_ne_nil (all _), digitsValue_toDigits]
    have value : ((n.toNat : Int) : ℚ) = n := congrArg _ (Int.toNat_of_nonneg nonnegative)
    rw [Int.cast_natCast] at value
    simp [value]
  · have negative : n < 0 := by omega
    have split : splitSign (toString n).toList = (true, Nat.toDigits 10 (-n).toNat) := by
      have chars : (toString n).toList = '-' :: Nat.toDigits 10 (-n).toNat := by
        rw [toString_of_neg negative, toString_of_nonneg (by omega)]
        simp
      rw [chars]
      rfl
    rw [numeralValue?_digits split Nat.toDigits_ne_nil (all _), digitsValue_toDigits]
    have value : (((-n).toNat : Int) : ℚ) = ((-n : Int) : ℚ) :=
      congrArg _ (Int.toNat_of_nonneg (by omega))
    rw [Int.cast_natCast, Int.cast_neg] at value
    simp [value]

end Sql

namespace Engine

/-- A helper is not asked when the confidence is high. -/
theorem query_of_high {e : Engine} {dax : String} {q : Query} (h : e.draft dax = .ok q)
    (high : q.confidence = .high) : e.query dax = .ok q := by
  have unasked : e.request? q = none := by
    have rank : ¬ q.confidence.rank < e.enhanceBelow.rank := by
      rw [high]
      cases e.enhanceBelow <;> decide
    simp [request?, rank]
  rw [query, h]
  simp only [bind, Except.bind, unasked]
  split
  · next asked => cases asked
  · rfl

/-- The query of a text whose words say an expression, where the SQL of the expression depends on
nothing else. -/
theorem query_of_cuts (e : Engine) {text sql : String} {ws : List Word} {tree : Expr}
    (cut : Cuts text.toList ws) (begins : ∀ w ∈ ws.head?, w.1 ≠ .columnRef)
    (derived : Says ws (.expression tree))
    (renders : ∀ s, Rendering.renderExpr e.target tree s = (.ok sql, s)) :
    e.query text = .ok (.ofState text sql {}) := by
  obtain ⟨accepted, parsed⟩ := parse_iff_cuts.mpr ⟨ws, cut, derived⟩
  obtain ⟨tokens, tokenized, said⟩ := cuts_iff_tokenize.mp cut
  have expression : beginsMeasure (parse text).tokens = false := by
    have kept : (parse text).tokens = (tokenize text).toOption.getD [] := tokens_parseWith
    rw [kept, tokenized]
    change beginsMeasure tokens = false
    rw [← beginsMeasure_takeWhile]
    rw [← said] at begins
    unfold beginsMeasure
    split
    · next first second rest same =>
      rw [same] at begins
      simp [begins (first.kind, first.lexeme) rfl]
    · rfl
  have source : parseSource text = parse text := by
    rw [parseSource]
    simp [expression]
  refine query_of_high ?_ rfl
  rw [draft_of_success (by rw [source, ParseOutcome.success, accepted]; rfl), source, parsed,
    renders]
  rfl

/-- The digits of a number are one word. -/
theorem writes_toDigits (k : Nat) :
    Writes (String.ofList (Nat.toDigits 10 k)) [(.integer, String.ofList (Nat.toDigits 10 k))] :=
  writes_integer Nat.toDigits_ne_nil fun _ => isDigit_of_mem_toDigits

/-- No sign stands before the digits of a number. -/
theorem head?_toDigits (k : Nat) :
    (String.ofList (Nat.toDigits 10 k)).toList.head? ≠ some '-' := by
  rw [String.toList_ofList]
  intro minus
  have digit := isDigit_of_mem_toDigits (List.mem_of_mem_head? minus)
  exact absurd digit (by decide)

section Literals

variable {k : Nat} {value : Literal}

theorem says_toDigits
    (read : readIntegerLiteral? (String.ofList (Nat.toDigits 10 k)) = some value) :
    Says [(.integer, String.ofList (Nat.toDigits 10 k))] (.primary (.literal value)) :=
  .literal (.integer rfl read)

/-- Digits are translated into the literal that they are read as. -/
theorem query_toDigits (e : Engine)
    (read : readIntegerLiteral? (String.ofList (Nat.toDigits 10 k)) = some value) :
    e.query (String.ofList (Nat.toDigits 10 k)) =
      .ok (.ofState (String.ofList (Nat.toDigits 10 k))
        (Rendering.renderLiteral e.dialect value) {}) :=
  query_of_cuts e (writes_toDigits k).cuts (by simp)
    (Says.expression_level (.operand (says_toDigits read).call_primary.signed_call)) fun _ => rfl

/-- Behind a sign, digits are translated into the sign and the literal that they are read as. -/
theorem query_minus_toDigits (e : Engine)
    (read : readIntegerLiteral? (String.ofList (Nat.toDigits 10 k)) = some value)
    (single : (Rendering.renderLiteral e.dialect value).toList.head? ≠ some '-') :
    e.query ("-" ++ String.ofList (Nat.toDigits 10 k)) =
      .ok (.ofState ("-" ++ String.ofList (Nat.toDigits 10 k))
        ("-" ++ Rendering.renderLiteral e.dialect value) {}) := by
  have derived := (says_toDigits read).call_primary.signed_call
  refine query_of_cuts e ((writes_toDigits k).minus (head?_toDigits k)).cuts (by simp)
    (Says.expression_level (.operand (.negate rfl derived))) fun s => ?_
  have rendered : Rendering.renderExpr e.target (.unary .negate (.literal value)) s =
      (.ok ("-" ++ Rendering.parenthesized
        (Rendering.signNeedsParens (.literal value) (Rendering.renderLiteral e.dialect value))
        (Rendering.renderLiteral e.dialect value)), s) := rfl
  have bare : Rendering.signNeedsParens (.literal value)
      (Rendering.renderLiteral e.dialect value) = false := by
    simpa [Rendering.signNeedsParens] using single
  rw [rendered, bare]
  rfl

end Literals

/-- A number that has its digits within 64 bits is its own SQL. -/
theorem query_toString_of_fits (e : Engine) {n : Int} (low : -2 ^ 63 < n) (high : n < 2 ^ 63) :
    e.query (toString n) = .ok (.ofState (toString n) (toString n) {}) := by
  by_cases nonnegative : 0 ≤ n
  · have fits : n.toNat < 2 ^ 63 := by omega
    have query := query_toDigits e (readIntegerLiteral?_toDigits fits)
    rwa [Rendering.renderLiteral, Int.toNat_of_nonneg nonnegative,
      ← toString_of_nonneg nonnegative] at query
  · have opposite : 0 ≤ -n := by omega
    have fits : (-n).toNat < 2 ^ 63 := by omega
    have text : Rendering.renderLiteral e.dialect (.integer (-n).toNat) =
        String.ofList (Nat.toDigits 10 (-n).toNat) := by
      rw [Rendering.renderLiteral, Int.toNat_of_nonneg opposite, toString_of_nonneg opposite]
    have query := query_minus_toDigits e (readIntegerLiteral?_toDigits fits)
      (text ▸ head?_toDigits _)
    rwa [text, ← toString_of_nonneg opposite, ← toString_of_neg (by omega)] at query

/-- The digits of the least number of 64 bits do not fit and become a float. -/
theorem query_toString_least (e : Engine) :
    e.query (toString (-2 ^ 63 : Int)) =
      .ok (.ofState (toString (-2 ^ 63 : Int)) "-9.223372036854776e18" {}) := by
  have text : toString (-2 ^ 63 : Int) = "-" ++ String.ofList (Nat.toDigits 10 (2 ^ 63)) := by
    decide +kernel
  have read : readIntegerLiteral? (String.ofList (Nat.toDigits 10 (2 ^ 63))) =
      some (.float (.finite false (2 ^ 52) 11)) := by decide +kernel
  have shown : (Double.finite false (2 ^ 52) 11).write .sql = "9.223372036854776e18" := by
    decide +kernel
  have query := query_minus_toDigits e read (by rw [Rendering.renderLiteral, shown]; decide)
  rw [Rendering.renderLiteral, shown] at query
  rw [text]
  exact query

/-- **Whole numbers keep their value.**  The text of a number of 64 bits, a sign and digits, is
translated with high confidence and without a warning, for every schema and library, in every
dialect and with any helper.  The SQL is the same text and stands for the number, unless it is the
least of them: that one becomes a float whose decimal is another number. -/
theorem query_toString (e : Engine) {n : Int} (low : -2 ^ 63 ≤ n) (high : n < 2 ^ 63) :
    ∃ q, e.query (toString n) = .ok q ∧ q.success = true ∧ q.confidence = .high ∧
      q.warnings = [] ∧
      q.sql = (if n = -2 ^ 63 then "-9.223372036854776e18" else toString n) ∧
      (Sql.numeralValue? q.sql = some (n : ℚ) ↔ n ≠ -2 ^ 63) := by
  by_cases least : n = -2 ^ 63
  · subst least
    refine ⟨_, query_toString_least e, rfl, rfl, rfl, (if_pos rfl).symm, ?_⟩
    have value : Sql.numeralValue? "-9.223372036854776e18" = some (-9223372036854776000 : ℚ) := by
      decide +kernel
    change Sql.numeralValue? "-9.223372036854776e18" = _ ↔ _
    rw [value]
    norm_num
  · refine ⟨_, query_toString_of_fits e (by omega) high, rfl, rfl, rfl, (if_neg least).symm, ?_⟩
    exact iff_of_true (Sql.numeralValue?_toString n) least

/-- The least number but one is its own SQL, and the least one is not. -/
theorem query_toString_limits :
    (∃ q, Engine.query {} "-9223372036854775807" = .ok q ∧ q.sql = "-9223372036854775807") ∧
      ∃ q, Engine.query {} "-9223372036854775808" = .ok q ∧ q.sql = "-9.223372036854776e18" ∧
        Sql.numeralValue? q.sql ≠ some (-9223372036854775808 : ℚ) := by
  obtain ⟨q, query, -, -, -, sql, -⟩ :=
    query_toString {} (n := -9223372036854775807) (by decide) (by decide)
  obtain ⟨q', query', -, -, -, sql', value⟩ :=
    query_toString {} (n := -9223372036854775808) (by decide) (by decide)
  refine ⟨⟨q, query, sql⟩, q', query', sql', fun same => ?_⟩
  exact absurd rfl (value.mp (by simpa using same))

end Engine

end MeasureSql
