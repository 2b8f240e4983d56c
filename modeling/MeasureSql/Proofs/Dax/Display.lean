import MeasureSql.Dax.Printer
import MeasureSql.Proofs.Dax.Faithful

/-!
# The words of the written form

The written form of a tree is cut into the words that its nodes are written as, in order, provided
that names are plain and no minus sign stands next to another one.  Which tree the words are read as
is another matter.

## Main definitions

* `Expr.words` — the words of the written form.

## Main results

* `Expr.writes_display` — the written form is cut into its words.
-/

namespace MeasureSql.Dax

open Text

/-! ## Words -/

/-- The word that a table is written as. -/
def tableWord (name : String) : Word :=
  if name.toList.contains ' ' then (.quotedIdentifier, "'" ++ name ++ "'")
  else (.ofWord name, name)

/-- The word that a column is written as. -/
def columnWord (name : String) : Word :=
  (.columnRef, "[" ++ name ++ "]")

/-- The words that a column with its table is written as. -/
def ColumnRef.words (ref : ColumnRef) : List Word :=
  ref.table.toList.map tableWord ++ [columnWord ref.column]

/-- The kind of word that a float is written as: an infinity is a name. -/
def floatKind : Double → TokenKind
  | .finite _ m e => if (Double.wholeValue? m e).isSome then .integer else .float
  | _ => .identifier

/-- The words that a literal is written as. -/
def Literal.words : Literal → List Word
  | .integer n => [(.integer, toString n)]
  | .float x => [(floatKind x, x.write .plain)]
  | .string body => [(.string, "\"" ++ body ++ "\"")]
  | .boolean true => [(.trueWord, "TRUE")]
  | .boolean false => [(.falseWord, "FALSE")]
  | .blank => (.blankWord, "BLANK") :: enclosed []

/-- Words with a comma in front of each group. -/
def furtherWords : List (List Word) → List Word
  | [] => []
  | ws :: wss => (.comma, ",") :: (ws ++ furtherWords wss)

/-- Words with commas between the groups. -/
def separated : List (List Word) → List Word
  | [] => []
  | ws :: wss => ws ++ furtherWords wss

/-- The words of a call. -/
def callWords (name : String) (args : List (List Word)) : List Word :=
  (.ofWord name, name) :: enclosed (separated args)

namespace Expr

mutual

/-- The words of the written form. -/
def words : Expr → List Word
  | .literal value => value.words
  | .column ref => ref.words
  | .table name => [tableWord name]
  | .call name args => callWords name (wordsAll args)
  | .binary l op r => enclosed (joined (words l) op.word (words r))
  | .unary .not e => (.not, "NOT") :: words e
  | .unary .negate e => (.minus, "-") :: words e
  | .variable _ _ => []
  | .cond c t none => callWords "IF" [words c, words t]
  | .cond c t (some e) => callWords "IF" [words c, words t, words e]
  | .measure _ _ _ _ => []

/-- The words of each expression of a list. -/
def wordsAll : List Expr → List (List Word)
  | [] => []
  | e :: es => words e :: wordsAll es

end

end Expr

/-! ## Pieces -/

theorem writes_table {name : String} (plain : isPlainTable name = true) :
    Writes (quoteTable name) [tableWord name] := by
  unfold isPlainTable at plain
  unfold quoteTable tableWord
  split at plain
  · next spaced =>
    rw [if_pos spaced, if_pos spaced]
    exact writes_quotedName plain
  · next single =>
    rw [if_neg single, if_neg single]
    exact writes_word (Bool.and_eq_true_iff.mp plain).1

theorem writes_column {table : Option String} {name : String}
    (plain : table.all isPlainTable = true) (nonempty : name ≠ "") (closed : ']' ∉ name.toList) :
    Writes (ColumnRef.qualifiedName ⟨table, name⟩) (ColumnRef.words ⟨table, name⟩) := by
  have bracketed := writes_bracketed nonempty closed
  cases table with
  | none => exact bracketed
  | some table =>
    intro rest bounded
    have named : Writes (quoteTable table) [tableWord table] := writes_table plain
    have first := named (("[" ++ name ++ "]").toList ++ rest) (by simp [delimiters])
    have whole := first.trans (bracketed rest bounded)
    simpa [ColumnRef.qualifiedName, ColumnRef.words, columnWord, String.append_assoc] using whole

/-- The arguments of a call. -/
theorem writes_further {e : Expr} {es : List Expr} (first : Writes e.display e.words)
    (more : ∀ e ∈ es, Writes e.display e.words) :
    Writes (", ".intercalate (e.display :: Expr.displayAll es))
      (e.words ++ furtherWords (Expr.wordsAll es)) := by
  induction es generalizing e with
  | nil =>
    rw [Expr.displayAll, String.intercalate_singleton, Expr.wordsAll, furtherWords, List.append_nil]
    exact first
  | cons e' es ih =>
    intro rest bounded
    have later := ih (more e' (by simp)) fun e he => more e (List.mem_cons_of_mem _ he)
    have comma := (cutsOff_comma _).trans ((cutsOff_space _).trans (later rest bounded))
    have whole := (first _ (by simp [delimiters])).trans comma
    rw [Expr.displayAll, String.intercalate_cons_cons, Expr.wordsAll, furtherWords]
    simpa using whole

theorem writes_arguments {es : List Expr} (h : ∀ e ∈ es, Writes e.display e.words) :
    Writes (", ".intercalate (Expr.displayAll es)) (separated (Expr.wordsAll es)) := by
  cases es with
  | nil =>
    intro rest _
    exact .refl rest
  | cons e es => exact writes_further (h e (by simp)) fun e he => h e (List.mem_cons_of_mem _ he)

/-- A word with something in parentheses. -/
theorem Writes.called {name text : String} {ws : List Word} (word : isWord name = true)
    (h : Writes text ws) :
    Writes (name ++ "(" ++ text ++ ")") ((.ofWord name, name) :: Dax.enclosed ws) := by
  intro rest bounded
  have inner := h.enclosed rest bounded
  have whole := (writes_word word _ (by simp [delimiters])).trans inner
  simpa using whole

theorem writes_call {name : String} {es : List Expr} (word : isWord name = true)
    (h : ∀ e ∈ es, Writes e.display e.words) :
    Writes (name ++ "(" ++ ", ".intercalate (Expr.displayAll es) ++ ")")
      (callWords name (Expr.wordsAll es)) :=
  (writes_arguments h).called word

theorem display_ifThen (c t : Expr) : (Expr.cond c t none).display =
    "IF" ++ "(" ++ ", ".intercalate (Expr.displayAll [c, t]) ++ ")" := by
  simp [Expr.display, Expr.displayAll, String.intercalate_cons_cons, ← String.toList_inj]

theorem display_ifThenElse (c t e : Expr) : (Expr.cond c t (some e)).display =
    "IF" ++ "(" ++ ", ".intercalate (Expr.displayAll [c, t, e]) ++ ")" := by
  simp [Expr.display, Expr.displayAll, String.intercalate_cons_cons, ← String.toList_inj]

/-- A word of the language. -/
theorem writes_fixedWord {name : String} {kind : TokenKind} (word : isWord name = true)
    (hkind : TokenKind.ofWord name = kind) : Writes name [(kind, name)] :=
  hkind ▸ writes_word word

theorem writes_blank : Writes "BLANK()" ((.blankWord, "BLANK") :: enclosed []) := by
  have word : isWord "BLANK" = true := by decide
  have kind : TokenKind.ofWord "BLANK" = .blankWord := by decide
  have nothing : Writes "" [] := fun rest _ => .refl rest
  have called := nothing.called word
  rw [kind] at called
  exact called

theorem writes_float {m : Nat} {e : Int} (canonical : Double.Canonical m e) :
    Writes ((Double.finite false m e).write .plain)
      [(floatKind (.finite false m e), (Double.finite false m e).write .plain)] := by
  cases whole : Double.wholeValue? m e with
  | some n =>
    obtain ⟨digits, text, nonempty, all, -, -⟩ := Double.write_plain_whole canonical whole
    rw [text, floatKind, whole]
    exact writes_integer nonempty all
  | none =>
    obtain ⟨whole', fraction, text, nonempty, all, nonempty', all', -⟩ :=
      Double.write_plain_fraction canonical whole
    rw [text, floatKind, whole]
    exact writes_decimal nonempty all nonempty' all'

/-! ## Beginnings -/

theorem head?_of_isWord {name : String} (word : isWord name = true) :
    name.toList.head? ≠ some '-' := by
  unfold isWord at word
  split at word
  · next c cs letters =>
    rw [letters]
    intro minus
    obtain rfl : c = '-' := by simpa using minus
    exact not_mem_marks_of_opensWord (Bool.and_eq_true_iff.mp word).1 (by decide)
  · cases word

theorem head?_append_ne {s t : String} (nonempty : s ≠ "") (h : s.toList.head? ≠ some '-') :
    (s ++ t).toList.head? ≠ some '-' := by
  cases letters : s.toList with
  | nil => exact absurd (String.toList_eq_nil_iff.mp letters) nonempty
  | cons c cs =>
    rw [letters] at h
    rwa [String.toList_append, letters]

theorem ne_empty_of_isWord {name : String} (word : isWord name = true) : name ≠ "" := by
  rintro rfl
  cases word

/-- A table name that is written plainly begins with a letter or a quotation mark. -/
theorem head?_quoteTable {name : String} (plain : isPlainTable name = true) :
    quoteTable name ≠ "" ∧ (quoteTable name).toList.head? ≠ some '-' := by
  unfold isPlainTable at plain
  unfold quoteTable
  split at plain
  · next spaced =>
    rw [if_pos spaced, Ne, ← String.toList_inj]
    simp
  · next single =>
    have word := (Bool.and_eq_true_iff.mp plain).1
    rw [if_neg single]
    exact ⟨ne_empty_of_isWord word, head?_of_isWord word⟩

theorem head?_digits {digits : List Char} (all : ∀ c ∈ digits, c.isDigit = true) :
    (String.ofList digits).toList.head? ≠ some '-' := by
  rw [String.toList_ofList]
  intro minus
  exact absurd (all _ (List.mem_of_mem_head? minus)) (by decide)

/-- **Only a minus sign is written with a minus sign in front.** -/
theorem head?_display {e : Expr} (he : e.IsSourced) (plain : e.plainNames = true)
    (unsigned : ∀ e', e ≠ .unary .negate e') : e.display.toList.head? ≠ some '-' := by
  cases he with
  | integer nonnegative fits =>
    rw [Expr.display, Literal.display, toString_of_nonneg nonnegative]
    exact head?_digits fun c => isDigit_of_mem_toDigits
  | @float m e canonical =>
    rw [Expr.display, Literal.display]
    cases whole : Double.wholeValue? m e with
    | some n =>
      obtain ⟨digits, text, nonempty, all, -, -⟩ := Double.write_plain_whole canonical whole
      rw [text]
      exact head?_digits all
    | none =>
      obtain ⟨whole', fraction, text, nonempty, all, -⟩ :=
        Double.write_plain_fraction canonical whole
      have digits := head?_digits all
      rw [text, String.ofList_append]
      exact head?_append_ne (by simpa [← String.toList_inj] using nonempty) digits
  | infinite => decide
  | text body => simp [Expr.display, Literal.display]
  | boolean b => cases b <;> decide
  | blank => decide
  | @column table name nonempty closed =>
    cases table with
    | none => simp [Expr.display, ColumnRef.qualifiedName]
    | some table =>
      have table' : isPlainTable table = true := plain
      obtain ⟨named, head⟩ := head?_quoteTable table'
      simp only [Expr.display, ColumnRef.qualifiedName]
      rw [String.append_assoc, String.append_assoc]
      exact head?_append_ne named head
  | table name => exact (head?_quoteTable plain).2
  | call hname hargs =>
    have word := (Bool.and_eq_true_iff.mp plain).1
    rw [Expr.display, String.append_assoc, String.append_assoc]
    exact head?_append_ne (ne_empty_of_isWord word) (head?_of_isWord word)
  | binary op hl hr => simp [Expr.display]
  | unary op he =>
    cases op with
    | negate => exact absurd rfl (unsigned _)
    | not => simp [Expr.display]
  | ifThen hc ht => simp [Expr.display]
  | ifThenElse hc ht he => simp [Expr.display]

/-! ## The written form -/

/-- **The written form is cut into its words**, if names are plain and no minus sign stands next to
another. -/
theorem writes_display {e : Expr} (he : e.IsSourced) (plain : e.everywhere Expr.plainNames = true)
    (single : e.everywhere Expr.singleMinuses = true) : Writes e.display e.words := by
  induction he with
  | integer nonnegative fits =>
    simp only [Expr.display, Literal.display, Expr.words, Literal.words]
    rw [toString_of_nonneg nonnegative]
    exact writes_integer Nat.toDigits_ne_nil fun c => isDigit_of_mem_toDigits
  | float canonical => exact writes_float canonical
  | infinite =>
    have word : isWord "inf" = true := by decide
    have kind : TokenKind.ofWord "inf" = .identifier := by decide
    exact writes_fixedWord word kind
  | text body => exact writes_text plain
  | boolean b =>
    cases b with
    | true =>
      have word : isWord "TRUE" = true := by decide
      have kind : TokenKind.ofWord "TRUE" = .trueWord := by decide
      exact writes_fixedWord word kind
    | false =>
      have word : isWord "FALSE" = true := by decide
      have kind : TokenKind.ofWord "FALSE" = .falseWord := by decide
      exact writes_fixedWord word kind
  | blank => exact writes_blank
  | column nonempty closed => exact writes_column plain nonempty closed
  | table name => exact writes_table plain
  | @call name args hname hargs ih =>
    simp only [Expr.everywhere, Bool.and_eq_true, Expr.everywhereAll_eq_true] at plain single
    exact writes_call (Bool.and_eq_true_iff.mp plain.1).1 fun e he =>
      ih e he (plain.2 e he) (single.2 e he)
  | binary op hl hr ihl ihr =>
    simp only [Expr.everywhere, Bool.and_eq_true] at plain single
    have inner := (ihl plain.1.2 single.1.2).joined (cutsOff_operator op) (ihr plain.2 single.2)
    have whole := inner.enclosed
    simpa [Expr.display, Expr.words, String.append_assoc] using whole
  | @unary e op he ih =>
    simp only [Expr.everywhere, Bool.and_eq_true] at plain single
    have inner := ih plain.2 single.2
    cases op with
    | negate =>
      refine inner.minus (head?_display he (Expr.self_of_everywhere plain.2) ?_)
      rintro e' rfl
      exact absurd single.1 Bool.false_ne_true
    | not =>
      have word : isWord "NOT" = true := by decide
      have kind : TokenKind.ofWord "NOT" = .not := by decide
      have before := inner.before word
      rw [kind] at before
      exact before
  | ifThen hc ht ihc iht =>
    simp only [Expr.everywhere, Expr.everywhereOpt, Bool.and_eq_true] at plain single
    rw [display_ifThen]
    refine writes_call (by decide) fun e he => ?_
    simp only [List.mem_cons, List.not_mem_nil, or_false] at he
    rcases he with rfl | rfl
    · exact ihc plain.1.1.2 single.1.1.2
    · exact iht plain.1.2 single.1.2
  | ifThenElse hc ht he ihc iht ihe =>
    simp only [Expr.everywhere, Expr.everywhereOpt, Bool.and_eq_true] at plain single
    rw [display_ifThenElse]
    refine writes_call (by decide) fun e he => ?_
    simp only [List.mem_cons, List.not_mem_nil, or_false] at he
    rcases he with rfl | rfl | rfl
    · exact ihc plain.1.1.2 single.1.1.2
    · exact iht plain.1.2 single.1.2
    · exact ihe plain.2 single.2

end MeasureSql.Dax
