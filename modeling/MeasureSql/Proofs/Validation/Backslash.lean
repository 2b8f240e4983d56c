import MeasureSql.Proofs.Validation.Parentheses
import MeasureSql.Render.Expr

/-!
# Backslashes in the check of quotes

The check of quotes passes over the character behind a backslash.  Neither the check of parentheses
nor the quoting of strings knows of backslashes, so all that matters is which quotes are passed
over.  The two checks agree on what is quoted exactly when no quote is passed over that opens or
closes a text; and a quoted string is found complete exactly when the quotes in it that count come
in pairs.

## Main definitions

* `leftOpen` — the quote that the check of quotes leaves open.
* `skipsMark` — is a quote passed over that opens or closes a text?
* `LiteralFree` — what stands before a place outside the literals of the check of quotes.
* `counted` — the quotes that the check of quotes counts in a quoted string.

## Main results

* `unquoted_iff_literalFree_iff` — where the two checks agree.
* `checks_agree` — what the check of parentheses says about the parentheses outside literals.
* `quoteIssues_quoteString` — when a quoted string is found complete.
-/

namespace MeasureSql.Validation

open Dax Rendering

/-! ## The scan of quotes -/

/-- The quote that is open after a text, when the character behind a backslash is passed over. -/
def leftOpen (quote : Option Char) : List Char → Option Char
  | [] => quote
  | '\\' :: [] => quote
  | '\\' :: _ :: rest => leftOpen quote rest
  | c :: rest => leftOpen (toggle quote c) rest

/-- A text is read in units: a backslash with the character behind it, or another character. -/
@[elab_as_elim]
theorem unit_induction {motive : List Char → Prop} (nil : motive [])
    (last : motive ['\\']) (escaped : ∀ c rest, motive rest → motive ('\\' :: c :: rest))
    (plain : ∀ c rest, c ≠ '\\' → motive rest → motive (c :: rest)) (cs : List Char) :
    motive cs := by
  obtain ⟨n, hn⟩ : ∃ n, cs.length = n := ⟨_, rfl⟩
  induction n using Nat.strongRecOn generalizing cs with
  | _ n ih =>
    cases cs with
    | nil => exact nil
    | cons c rest =>
      by_cases backslash : c = '\\'
      · obtain rfl := backslash
        cases rest with
        | nil => exact last
        | cons d rest => exact escaped d rest (ih _ (by simp at hn; omega) rest rfl)
      · exact plain c rest backslash (ih _ (by simp at hn; omega) rest rfl)

theorem leftOpen_cons {c : Char} (h : c ≠ '\\') (quote : Option Char) (rest : List Char) :
    leftOpen quote (c :: rest) = leftOpen (toggle quote c) rest := by
  simp [leftOpen, h]

theorem map_fst_quoteAfter (quote : Option (Char × Nat)) (offset : Nat) (c : Char) :
    (quoteAfter quote offset c).map (·.1) = toggle (quote.map (·.1)) c := by
  cases quote <;> simp only [quoteAfter, toggle, Option.map_some, Option.map_none] <;> split <;> rfl

theorem map_fst_openQuoteFrom (quote : Option (Char × Nat)) (offset : Nat) (cs : List Char) :
    (openQuoteFrom quote offset cs).map (·.1) = leftOpen (quote.map (·.1)) cs := by
  induction cs using unit_induction generalizing quote offset with
  | nil => rfl
  | last => rfl
  | escaped c rest ih => exact ih quote _
  | plain c rest other ih =>
    rw [openQuoteFrom_cons other, leftOpen_cons other, ← map_fst_quoteAfter quote offset c]
    exact ih _ _

theorem openQuoteFrom_eq_none_iff (cs : List Char) :
    openQuoteFrom none 0 cs = none ↔ leftOpen none cs = none := by
  rw [← Option.map_eq_none_iff (f := Prod.fst)]
  exact Eq.congr_left (map_fst_openQuoteFrom none 0 cs)

/-- **The check of quotes** has nothing to say when no quote is left open. -/
theorem quoteIssues_eq_nil_iff (sql : String) :
    quoteIssues sql = [] ↔ leftOpen none sql.toList = none := by
  rw [← openQuoteFrom_eq_none_iff, quoteIssues, openQuote?]
  cases openQuoteFrom none 0 sql.toList <;> simp

theorem toggle_toggle {mark : Char} (h : isQuote mark = true) (quote : Option Char) :
    toggle (toggle quote mark) mark = quote := by
  cases quote with
  | none => simp [toggle, h]
  | some q =>
    by_cases same : mark = q
    · simp [toggle, same, same ▸ h]
    · simp [toggle, same]

/-- Only quotes are open. -/
theorem isQuote_of_toggle {quote : Option Char} (hq : ∀ q ∈ quote, isQuote q = true) (c : Char) :
    ∀ q ∈ toggle quote c, isQuote q = true := by
  intro q hmem
  cases quote with
  | none =>
    rw [toggle] at hmem
    split at hmem
    · next quotes =>
      obtain rfl := Option.some.inj hmem
      exact quotes
    · cases hmem
  | some p =>
    rw [toggle] at hmem
    split at hmem
    · cases hmem
    · exact hq q hmem

theorem toggle_of_not_isQuote {quote : Option Char} (hq : ∀ q ∈ quote, isQuote q = true) {c : Char}
    (hc : isQuote c = false) : toggle quote c = quote := by
  cases quote with
  | none => simp [toggle, hc]
  | some q =>
    have other : c ≠ q := by
      rintro rfl
      rw [hq c rfl] at hc
      cases hc
    simp [toggle, other]

/-! ## What the two checks take for quoted -/

/-- Is a quote passed over, behind a backslash, that opens or closes a text? -/
def skipsMark (quote : Option Char) : List Char → Bool
  | [] => false
  | '\\' :: [] => false
  | '\\' :: c :: rest => toggle quote c != quote || skipsMark quote rest
  | c :: rest => skipsMark (toggle quote c) rest

theorem skipsMark_cons {c : Char} (h : c ≠ '\\') (quote : Option Char) (rest : List Char) :
    skipsMark quote (c :: rest) = skipsMark (toggle quote c) rest := by
  simp [skipsMark, h]

/-- A text that ends outside the literals, as the check of quotes delimits them. -/
def LiteralFree (before : List Char) : Prop :=
  openQuoteFrom none 0 before = none

instance : DecidablePred LiteralFree := fun before =>
  inferInstanceAs (Decidable (openQuoteFrom none 0 before = none))

/-- A mark that opens or closes a text leads outside quotes, or away from there. -/
theorem toggle_eq_none_iff {quote : Option Char} {c : Char} (h : toggle quote c ≠ quote) :
    toggle quote c = none ↔ quote ≠ none := by
  cases quote with
  | none => simpa using h
  | some q =>
    by_cases same : c = q
    · simp [toggle, same]
    · simp [toggle, same] at h

/-- From one state, both scans are outside quotes at the same places exactly when no mark is passed
over. -/
theorem leftOpen_prefix_iff (quote : Option Char) (hq : ∀ q ∈ quote, isQuote q = true)
    (cs : List Char) :
    (∀ before, before <+: cs → (before.foldl toggle quote = none ↔ leftOpen quote before = none)) ↔
      skipsMark quote cs = false := by
  have backslash : toggle quote '\\' = quote := toggle_of_not_isQuote hq rfl
  induction cs using unit_induction generalizing quote with
  | nil => simp [skipsMark, leftOpen]
  | last =>
    refine iff_of_true ?_ rfl
    intro before hbefore
    rcases List.prefix_cons_iff.mp hbefore with rfl | ⟨rest, rfl, hrest⟩
    · rfl
    · obtain rfl := List.prefix_nil.mp hrest
      simp [leftOpen, backslash]
  | escaped c rest ih =>
    by_cases mark : toggle quote c = quote
    · rw [skipsMark, mark, bne_self_eq_false, Bool.false_or]
      refine Iff.trans ?_ (ih quote hq backslash)
      constructor
      · intro h before hbefore
        have := h ('\\' :: c :: before) (by simpa using hbefore)
        simpa [leftOpen, backslash, mark] using this
      · intro h before hbefore
        rcases List.prefix_cons_iff.mp hbefore with rfl | ⟨behind, rfl, hbehind⟩
        · rfl
        rcases List.prefix_cons_iff.mp hbehind with rfl | ⟨text, rfl, htext⟩
        · simp [leftOpen, backslash]
        · simpa [leftOpen, backslash, mark] using h text htext
    · refine iff_of_false ?_ (by simp [skipsMark, mark])
      -- behind the mark one scan is outside quotes and the other is not
      intro h
      have behind := h ['\\', c] ⟨rest, rfl⟩
      rw [List.foldl_cons, List.foldl_cons, List.foldl_nil, backslash,
        toggle_eq_none_iff mark] at behind
      exact iff_not_self behind.symm
  | plain c rest other ih =>
    have hnext := isQuote_of_toggle hq c
    rw [skipsMark_cons other]
    refine Iff.trans ?_ (ih (toggle quote c) hnext (toggle_of_not_isQuote hnext rfl))
    constructor
    · intro h before hbefore
      have := h (c :: before) (by simpa using hbefore)
      rwa [leftOpen_cons other] at this
    · intro h before hbefore
      rcases List.prefix_cons_iff.mp hbefore with rfl | ⟨text, rfl, htext⟩
      · rfl
      · rw [leftOpen_cons other]
        exact h text htext

/-- **The two checks agree** on what is quoted, at every place of a text, exactly when the check of
quotes passes over no quote that opens or closes a text. -/
theorem unquoted_iff_literalFree_iff (sql : String) :
    (∀ before, before <+: sql.toList → (Unquoted before ↔ LiteralFree before)) ↔
      skipsMark none sql.toList = false := by
  rw [← leftOpen_prefix_iff none (by simp)]
  simp only [unquoted_iff, LiteralFree, openQuoteFrom_eq_none_iff]

/-- The parentheses of a text depend only on which texts before them end outside quotes. -/
theorem parens_congr {P Q : List Char → Prop} [DecidablePred P] [DecidablePred Q]
    {before cs : List Char}
    (h : ∀ text, text <+: before ++ cs → (P text ↔ Q text)) :
    parens P before cs = parens Q before cs := by
  induction cs generalizing before with
  | nil => rfl
  | cons c cs ih =>
    have here : P before ↔ Q before := h before ⟨_, rfl⟩
    have behind : parens P (before ++ [c]) cs = parens Q (before ++ [c]) cs :=
      ih (by simpa using h)
    rw [parens, parens, behind]
    simp only [here]

/-- The parentheses of a text outside literals, as the check of quotes delimits them. -/
def literalFreeSides (sql : String) : List Side :=
  (parens LiteralFree [] sql.toList).map (·.2)

/-- **The check of parentheses and the check of quotes.**  They agree on what is quoted, at every
place of a text, exactly when the check of quotes passes over no quote that opens or closes a text.
Then the check of parentheses says nothing when the parentheses outside the literals of the check of
quotes are in balance, and reports one error when they are not. -/
theorem checks_agree (sql : String) :
    ((∀ before, before <+: sql.toList → (Unquoted before ↔ LiteralFree before)) ↔
      skipsMark none sql.toList = false) ∧
    (skipsMark none sql.toList = false →
      (WellNested (literalFreeSides sql) → parenIssues sql = []) ∧
      (¬ WellNested (literalFreeSides sql) →
        ∃ i, parenIssues sql = [i] ∧ i.isError = true)) := by
  refine ⟨unquoted_iff_literalFree_iff sql, fun none_skipped => ?_⟩
  have same : literalFreeSides sql = unquotedSides sql := by
    have agree := (unquoted_iff_literalFree_iff sql).mpr none_skipped
    have places : parens LiteralFree [] sql.toList = unquotedParens sql :=
      parens_congr fun text inside => (agree text inside).symm
    rw [literalFreeSides, unquotedSides, places]
  rw [same, ← parenIssues_eq_nil_iff]
  refine ⟨id, fun said => ?_⟩
  cases fault : parenFault? sql with
  | none => simp [parenIssues, fault] at said
  | some found =>
    refine ⟨found.issue, by simp [parenIssues, fault], ?_⟩
    cases found <;> rfl

/-- The check of quotes takes the quote behind the backslash for a part of the text and the check
of parentheses takes it for the end, so the last parenthesis stands in quotes for the latter. -/
example : quoteIssues "('it\\'s')" = [] ∧ literalFreeSides "('it\\'s')" = [.opening, .closing] ∧
    parenIssues "('it\\'s')" = [(ParenFault.unclosed 1).issue] := by
  decide

/-! ## Quoted strings -/

/-- The quotes that the check of quotes counts in a text between single quotes, with the closing
one: a single quote is doubled, so it counts only behind a backslash, and a backslash at the end
takes the closing quote with it. -/
def counted : List Char → List Char
  | [] => ['\x27']
  | '\\' :: [] => []
  | '\\' :: c :: rest => if c == '\x27' then c :: counted rest else counted rest
  | c :: rest => if c == '"' then c :: counted rest else counted rest

theorem counted_cons {c : Char} (h : c ≠ '\\') (rest : List Char) :
    counted (c :: rest) = if c == '"' then c :: counted rest else counted rest := by
  simp [counted, h]

/-- Only the quotes that count open and close texts. -/
theorem leftOpen_doubled {quote : Option Char} (hq : ∀ q ∈ quote, isQuote q = true)
    (cs : List Char) :
    leftOpen quote (Text.doubled (· == '\x27') cs ++ ['\x27']) =
      (counted cs).foldl toggle quote := by
  induction cs using unit_induction generalizing quote with
  | nil => rfl
  | last => rfl
  | escaped c rest ih =>
    by_cases mark : c = '\x27'
    · obtain rfl := mark
      exact ih (isQuote_of_toggle hq '\x27')
    · simpa [Text.doubled, counted, leftOpen, mark] using ih hq
  | plain c rest other ih =>
    rw [counted_cons other]
    by_cases mark : c = '\x27'
    · obtain rfl := mark
      have twice : toggle (toggle quote '\x27') '\x27' = quote := toggle_toggle rfl quote
      have here := ih (isQuote_of_toggle (isQuote_of_toggle hq '\x27') '\x27')
      rw [twice] at here
      simpa [Text.doubled, leftOpen, twice] using here
    · have text : Text.doubled (· == '\x27') (c :: rest) ++ ['\x27'] =
          c :: (Text.doubled (· == '\x27') rest ++ ['\x27']) := by
        simp [Text.doubled, mark]
      rw [text, leftOpen_cons other, ih (isQuote_of_toggle hq c)]
      by_cases double : c = '"'
      · simp [double]
      · have still : toggle quote c = quote :=
          toggle_of_not_isQuote hq (by simp [isQuote, mark, double])
        simp [double, still]

/-- What stands before the quotes of a string opens no text. -/
theorem leftOpen_quoteString (d : Dialect) (s : String) :
    leftOpen none (d.quoteString s).toList = ('\x27' :: counted s.toList).foldl toggle none := by
  have opened : (∀ q ∈ some '\x27', isQuote q = true) := by simp [isQuote]
  have inside := leftOpen_doubled opened s.toList
  have text : leftOpen none (Sql.quoteSingle s).toList =
      leftOpen (some '\x27') (Text.doubled (· == '\x27') s.toList ++ ['\x27']) := by
    rw [Sql.quoteSingle, Sql.quoteBetween, String.toList_ofList, List.cons_append,
      leftOpen_cons (by decide)]
    rfl
  cases d with
  | tsql =>
    have letter : (Dialect.tsql.quoteString s).toList = 'N' :: (Sql.quoteSingle s).toList := by
      simp [Dialect.quoteString]
    rw [letter, leftOpen_cons (by decide)]
    exact text.trans inside
  | snowflake | postgres | duckdb | bigquery => exact text.trans inside

/-- Without a backslash a double quote counts and nothing else. -/
theorem counted_of_plain {cs : List Char} (h : '\\' ∉ cs) :
    counted cs = cs.filter (· == '"') ++ ['\x27'] := by
  induction cs with
  | nil => rfl
  | cons c cs ih =>
    rw [List.mem_cons, not_or] at h
    rw [counted_cons (Ne.symm h.1), ih h.2, List.filter_cons]
    split <;> rfl

/-- **A quoted string is found complete** exactly when the quotes in it that count, with those
around it, come in pairs; so it is without a backslash, in every dialect.  The SQL of a string
literal is the quoted string. -/
theorem quoteIssues_quoteString (d : Dialect) (s : String) :
    (quoteIssues (d.quoteString s) = [] ↔ Unquoted ('\x27' :: counted s.toList)) ∧
    ('\\' ∉ s.toList → quoteIssues (d.quoteString s) = []) ∧
    ∀ t : Target, t.dialect = d → ∀ st,
      renderExpr t (.literal (.string s)) st = (.ok (d.quoteString s), st) := by
  have complete : quoteIssues (d.quoteString s) = [] ↔ Unquoted ('\x27' :: counted s.toList) := by
    rw [quoteIssues_eq_nil_iff, leftOpen_quoteString, unquoted_iff]
  refine ⟨complete, fun plain => complete.mpr ?_, ?_⟩
  · rw [counted_of_plain plain]
    exact .quoted rfl (by simp) .nil
  · rintro t rfl st
    rfl

/-- A backslash at the end of a string takes the closing quote with it. -/
example : quoteIssues (Dialect.postgres.quoteString "\\") = [openQuoteIssue '\x27' 0] := by
  decide

end MeasureSql.Validation
