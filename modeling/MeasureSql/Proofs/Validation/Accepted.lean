import MeasureSql.Proofs.Dax.Bound
import MeasureSql.Proofs.Render.Literal
import MeasureSql.Proofs.Render.Mentioned
import MeasureSql.Proofs.Render.Query
import MeasureSql.Proofs.Validation.Endings

/-!
# Queries pass the checks

What the engine makes of a source text passes the checks of its own validator: the SQL is not empty,
its quotes and parentheses are in balance, and it ends neither in a comma nor in `AND` or `OR`.
Names are taken to be plain, those of tables and columns to be neither of the two words, and texts
to have no backslash, which one of the two scans would take as an escape.  All ways to put SQL
together keep a text in balance and let it end in one of its parts or in a parenthesis.

## Main definitions

* `Faultless` — a text in balance that does not stop too early.
* `accepted` — the vocabulary of plain names and faultless words.

## Main results

* `isValid_of_faultless` — the checks find no error in a faultless text.
* `faultless_of_composed` — texts from faultless words are faultless.
* `Engine.isValid_of_query` — queries pass the checks.
-/

namespace MeasureSql

open Dax Sql Text

namespace Validation

/-- A text in balance that does not stop too early. -/
structure Faultless (cs : List Char) : Prop where
  balanced : Balanced cs
  ends : endsWell cs = true

instance (cs : List Char) : Decidable (Faultless cs) :=
  decidable_of_iff (Balanced cs ∧ endsWell cs = true) ⟨fun h => ⟨h.1, h.2⟩, fun h => ⟨h.1, h.2⟩⟩

/-- A character that may stand anywhere in a text and at its end. -/
def isSafe (c : Char) : Bool :=
  isNeutral c && isClosing c

/-- What is said of habits is no error. -/
theorem isError_habitIssues {sql : String} {issue : Issue} (h : issue ∈ habitIssues sql) :
    issue.isError = false := by
  unfold habitIssues at h
  rcases List.mem_append.mp h with h | h <;> split at h <;> simp_all [Issue.isError]

/-- **The checks find no error in a faultless text.** -/
theorem isValid_of_faultless {sql : String} (h : Faultless sql.toList) :
    (Validator.checkExpression sql).isValid = true := by
  have balanced : Balanced (normalize sql).toList :=
    balanced_congr (filter_normalize sql).symm h.balanced
  have ends : endsWell (normalize sql).toList = true := endsWell_normalize h.ends
  have issues : lexicalIssues (normalize sql) = habitIssues (normalize sql) := by
    simp [lexicalIssues, isEmpty_trim ends, parenIssues, parenFault?_eq_none balanced, quoteIssues,
      openQuote?_eq_none balanced, endingIssues_eq_nil ends]
  simp only [ValidationReport.isValid, Validator.checkExpression, issues, Bool.not_eq_true',
    List.any_eq_false, Bool.not_eq_true]
  exact fun issue hissue => isError_habitIssues hissue

namespace Faultless

variable {xs ys cs : List Char} {c : Char}

/-- A text behind a break. -/
theorem after (hx : Balanced xs) (hbreak : isBreak c = true) (hneutral : isNeutral c = true)
    (hy : Faultless ys) : Faultless (xs ++ c :: ys) where
  balanced := by
    have mark : Balanced [c] := balanced_of_neutral (by simpa using hneutral)
    exact hx.append (mark.append hy.balanced)
  ends := by
    have ne : ys ≠ [] := by
      rintro rfl
      cases hy.ends
    rw [endsWell_append_cons hbreak ne]
    exact hy.ends

/-- A text in parentheses, behind the name of a function or behind nothing. -/
theorem paren (hx : Balanced xs) (hy : Balanced ys) :
    Faultless (xs ++ '(' :: (ys ++ [')'])) where
  balanced := hx.append hy.paren
  ends := by
    rw [← List.cons_append, ← List.append_assoc]
    exact endsWell_append (by decide) _

theorem of_forall (ne : cs ≠ []) (h : ∀ c ∈ cs, isSafe c = true) : Faultless cs := by
  simp only [isSafe, Bool.and_eq_true] at h
  exact ⟨balanced_of_neutral fun c hc => (h c hc).1,
    endsWell_of_isClosing ne fun c hc => (h c hc).2⟩

/-- A text in quotes. -/
theorem quoteBetween {mark : Char} (hmark : isQuote mark = true) {s : String}
    (plain : '\\' ∉ s.toList) : Faultless (Sql.quoteBetween mark mark s).toList where
  balanced := balanced_quoteBetween hmark plain
  ends := by
    have closing : isClosing mark = true := by
      simp only [isQuote, Bool.or_eq_true, beq_iff_eq] at hmark
      rcases hmark with rfl | rfl <;> decide
    rw [Sql.quoteBetween, String.toList_ofList]
    exact endsWell_append closing _

end Faultless

theorem balanced_leads : ∀ lead ∈ leads, Balanced lead.toList := by
  decide +kernel

theorem faultless_fixedWords : ∀ word ∈ fixedWords, Faultless word.toList := by
  decide +kernel

/-- **Texts from faultless words are faultless**, if the names of functions are in balance. -/
theorem faultless_of_composed {V : Vocabulary} (hword : ∀ w, V.word w → Faultless w.toList)
    (hfunction : ∀ f, V.function f → Balanced f.toList) {a : String} (h : Composed V a) :
    Faultless a.toList := by
  induction h with
  | word h => exact hword _ h
  | led h _ ih =>
    simpa using ih.after (balanced_leads _ h) (c := ' ') (by decide) (by decide)
  | beside _ _ iha ihb => simpa using ihb.after iha.balanced (c := ' ') (by decide) (by decide)
  | listed _ _ iha ihb =>
    have comma : Balanced [','] := by decide
    simpa using ihb.after (iha.balanced.append comma) (c := ' ') (by decide) (by decide)
  | paren _ ih => simpa using Faultless.paren .nil ih.balanced
  | applied hf _ ih => simpa using Faultless.paren (hfunction _ hf) ih.balanced
  | called hf => simpa using Faultless.paren (hfunction _ hf) .nil
  | negated hhead _ ih => simpa using ih.after .nil (c := '-') (by decide) (by decide)

/-! ## Names -/

/-- A name of a table or a column. -/
def IsPlace (name : String) : Prop :=
  isIdentifier name = true ∧ isConnective name = false

instance : DecidablePred IsPlace := fun name =>
  inferInstanceAs (Decidable (isIdentifier name = true ∧ isConnective name = false))

/-- The small form of a plain name is plain, and the same word. -/
theorem isIdentifier_lower {name : String} (h : isIdentifier name = true) :
    lower name = asciiLower name ∧ isIdentifier (asciiLower name) = true ∧
      isConnective (asciiLower name) = isConnective name := by
  obtain ⟨ne, plain⟩ := isIdentifier_iff.mp h
  have ascii : ∀ c ∈ name.toList, isAscii c = true := fun c hc =>
    isAscii_of_isNamePart (plain c hc)
  have each {c : Char} (hc : isAscii c = true) :
      (Template.isNamePart c = true → Template.isNamePart c.toLower = true) ∧
        c.toLower.toUpper = c.toUpper := by
    refine of_isAscii hc ?_
    decide +kernel
  refine ⟨lower_eq_asciiLower ascii, isIdentifier_iff.mpr ⟨?_, ?_⟩, ?_⟩
  · intro empty
    have letters : name.toList.map Char.toLower = [] := by
      simpa [asciiLower] using congrArg String.toList empty
    exact ne (by simpa using letters)
  · intro c hc
    obtain ⟨d, hd, rfl⟩ := List.mem_map.mp (by simpa [asciiLower] using hc)
    exact (each (ascii d hd)).1 (plain d hd)
  · have same : asciiUpper (asciiLower name) = asciiUpper name := by
      simp only [asciiUpper, asciiLower, String.toList_ofList, List.map_map]
      exact congrArg String.ofList (List.map_congr_left fun c hc => (each (ascii c hc)).2)
    rw [isConnective, same, isConnective]

theorem IsPlace.lower {name : String} (h : IsPlace name) : IsPlace (lower name) := by
  obtain ⟨same, plain, word⟩ := isIdentifier_lower h.1
  rw [same]
  exact ⟨plain, word.trans h.2⟩

/-- The name that is guessed for a plain name is its small form. -/
theorem guess_of_isIdentifier {name : String} (h : isIdentifier name = true) :
    guess name = Text.lower name := by
  have printed {name : String} (h : isIdentifier name = true) :
      ∀ c ∈ name.toList, isBlank c = false := fun c hc =>
    (isNamePart_cases ((isIdentifier_iff.mp h).2 c hc)).2.2.1
  obtain ⟨same, plain, -⟩ := isIdentifier_lower h
  rw [guess, trim_of_printed (printed h), same, ← String.toList_inj, String.toList_map]
  refine (List.map_congr_left fun c hc => ?_).trans (List.map_id _)
  have other : c ≠ ' ' := by
    rintro rfl
    exact absurd (printed plain _ hc) (by decide)
  simp [other]

/-- Plain names are in balance. -/
theorem balanced_of_isIdentifier {name : String} (h : isIdentifier name = true) :
    Balanced name.toList :=
  balanced_of_neutral fun c hc => (isNamePart_cases ((isIdentifier_iff.mp h).2 c hc)).2.1

theorem balanced_asciiUpper {name : String} (h : isIdentifier name = true) :
    Balanced (asciiUpper name).toList := by
  refine balanced_of_neutral fun c hc => ?_
  rw [toList_asciiUpper] at hc
  obtain ⟨d, hd, rfl⟩ := List.mem_map.mp hc
  have part := (isIdentifier_iff.mp h).2 d hd
  have ascii := isAscii_of_isNamePart part
  revert part
  refine of_isAscii ascii ?_
  decide +kernel

/-- The vocabulary of plain names and faultless words. -/
def accepted : Vocabulary where
  name := IsPlace
  word a := Faultless a.toList
  function f := Balanced f.toList
  word_of_name h := ⟨balanced_of_isIdentifier h.1, endsWell_of_isIdentifier h.1 h.2⟩
  word_dotted ha hb := by
    have word : Faultless _ := ⟨balanced_of_isIdentifier hb.1, endsWell_of_isIdentifier hb.1 hb.2⟩
    simpa using word.after (balanced_of_isIdentifier ha.1) (c := '.') (by decide) (by decide)
  word_fixed h := faultless_fixedWords _ h
  function_of_run h :=
    balanced_of_neutral fun c hc => (isNamePart_cases (List.all_eq_true.mp h c hc)).2.1
  name_of_key {a} h := by
    obtain ⟨ne, plain⟩ := isIdentifier_iff.mp h.1
    have capitals : ∀ c ∈ (asciiUpper a).toList, (c != '.') = true := by
      intro c hc
      rw [bne_iff_ne]
      rintro rfl
      exact absurd (plain _ (mem_of_mem_asciiUpper hc rfl)) (by decide)
    rw [upper_eq_asciiUpper fun c hc => isAscii_of_isNamePart (plain c hc),
      List.takeWhile_eq_self_iff.mpr capitals, String.ofList_toList, lower_asciiUpper]
    exact h.lower

/-! ## Literals -/

theorem isSafe_of_isNumeralChar {c : Char} (h : Reading.isNumeralChar c = true) :
    isSafe c = true := by
  simp only [Reading.isNumeralChar, Bool.or_eq_true, beq_iff_eq] at h
  rcases h with digit | rfl
  · have part : Template.isNamePart c = true := by
      simp [Template.isNamePart, Char.isAlphanum, digit]
    revert digit
    refine of_isAscii (isAscii_of_isNamePart part) ?_
    decide +kernel
  · decide

theorem isSafe_int (n : Int) : ∀ c ∈ (toString n).toList, isSafe c = true := by
  obtain ⟨ds, -, hds, htext⟩ := Reading.exists_digits_int n
  have digits : ∀ c ∈ ds, isSafe c = true := fun c hc => isSafe_of_isNumeralChar (hds c hc)
  rcases htext with htext | htext
  · exact htext ▸ digits
  · exact htext ▸ List.forall_mem_cons.mpr ⟨by decide, digits⟩

theorem isSafe_magnitude {cs : List Char} (h : Reading.IsMagnitude cs) :
    cs ≠ [] ∧ ∀ c ∈ cs, isSafe c = true := by
  cases h with
  | numeral hne h => exact ⟨hne, fun c hc => isSafe_of_isNumeralChar (h c hc)⟩
  | scientific hne h exponent =>
    refine ⟨by simp, List.forall_mem_append.mpr ⟨fun c hc => isSafe_of_isNumeralChar (h c hc), ?_⟩⟩
    exact List.forall_mem_cons.mpr ⟨by decide, isSafe_int exponent⟩

/-- A number, with or without a sign. -/
theorem faultless_signed {cs text : List Char} (h : cs ≠ [] ∧ ∀ c ∈ cs, isSafe c = true)
    (htext : text = cs ∨ text = '-' :: cs) : Faultless text := by
  rcases htext with rfl | rfl
  · exact .of_forall h.1 h.2
  · exact .of_forall (by simp) (List.forall_mem_cons.mpr ⟨by decide, h.2⟩)

theorem faultless_int (n : Int) : Faultless (toString n).toList := by
  obtain ⟨cs, hcs, htext⟩ := Reading.exists_magnitude_int n
  exact faultless_signed (isSafe_magnitude hcs) htext

theorem faultless_double (x : Double) : Faultless (x.write .sql).toList := by
  have words : ∀ w ∈ ["NaN", "inf"], w.toList ≠ [] ∧ w.toList.all isSafe = true := by
    decide +kernel
  obtain ⟨cs, hcs | ⟨w, hw, rfl⟩, htext⟩ := Reading.exists_magnitude_double x
  · exact faultless_signed (isSafe_magnitude hcs) htext
  · exact faultless_signed ((words w hw).imp_right List.all_eq_true.mp) htext

/-- The dialects that quote names with a mark that the checks know. -/
def quotingDialects : List Dialect := [.snowflake, .postgres, .duckdb]

theorem faultless_quoteIdentifier {d : Dialect} (hd : d ∈ quotingDialects) {s : String}
    (h : '\\' ∉ s.toList) : Faultless (d.quoteIdentifier s).toList := by
  simp only [quotingDialects, List.mem_cons, List.not_mem_nil, or_false] at hd
  rcases hd with rfl | rfl | rfl <;> exact .quoteBetween rfl h

theorem faultless_quoteString {d : Dialect} (hd : d ∈ quotingDialects) {s : String}
    (h : '\\' ∉ s.toList) : Faultless (d.quoteString s).toList := by
  simp only [quotingDialects, List.mem_cons, List.not_mem_nil, or_false] at hd
  rcases hd with rfl | rfl | rfl <;> exact .quoteBetween rfl h

/-! ## Expressions -/

/-- The names of an expression are plain, those of tables and columns are neither of the two words,
and its text has no backslash. -/
structure IsPlain (e : Expr) : Prop where
  places : ∀ name ∈ e.places, IsPlace name
  labels : ∀ name ∈ e.labels, isIdentifier name = true
  texts : ∀ text ∈ e.texts, '\\' ∉ text.toList

instance : DecidablePred IsPlain := fun e =>
  decidable_of_iff ((∀ name ∈ e.places, IsPlace name) ∧
      (∀ name ∈ e.labels, isIdentifier name = true) ∧ ∀ text ∈ e.texts, '\\' ∉ text.toList)
    ⟨fun h => ⟨h.1, h.2.1, h.2.2⟩, fun h => ⟨h.places, h.labels, h.texts⟩⟩

/-- A plain expression belongs to the vocabulary, unless it is a variable without a value. -/
theorem covers_of_isPlain {d : Dialect} (hd : d ∈ quotingDialects) {e : Expr} (h : IsPlain e)
    (bound : ∀ name, e ≠ .variable name none) : accepted.Covers d e := by
  have guessed {name : String} (hname : IsPlace name) : IsPlace (guess name) := by
    rw [guess_of_isIdentifier hname.1]
    exact hname.lower
  have unescaped {name : String} (hname : isIdentifier name = true) : '\\' ∉ name.toList :=
    (balanced_of_isIdentifier hname).plain
  cases e with
  | literal value =>
    cases value with
    | integer n => exact ⟨faultless_int n, by simp⟩
    | float x => exact ⟨faultless_double x, by simp⟩
    | string s =>
      have text : '\\' ∉ s.toList := h.texts s (by simp [Expr.texts])
      refine ⟨faultless_quoteString hd text, ?_⟩
      rintro _ ⟨⟩
      exact faultless_quoteIdentifier hd text
    | boolean b =>
      have word : d.boolean b ∈ fixedWords := by
        cases d <;> cases b <;> simp [Dialect.boolean, fixedWords]
      exact ⟨faultless_fixedWords _ word, by simp⟩
    | blank => exact ⟨faultless_fixedWords "NULL" (by simp [fixedWords]), by simp⟩
  | column ref =>
    refine ⟨guessed (h.places _ (by simp [Expr.places])), fun table htable =>
      guessed (h.places _ ?_)⟩
    simp [Expr.places, Option.mem_def.mp htable]
  | table name => exact guessed (h.places _ (by simp [Expr.places]))
  | call name args =>
    exact balanced_asciiUpper (h.labels name (by simp [Expr.labels]))
  | «variable» name value => exact fun none => absurd (none ▸ rfl) (bound name)
  | measure name body format description =>
    exact faultless_quoteIdentifier hd (unescaped (h.labels _ (by simp [Expr.labels])))
  | _ => trivial

/-- The names of a schema in SQL are plain, and those of tables and columns are neither of the two
words. -/
structure IsPlainSchema (schema : Schema) : Prop where
  places : ∀ name ∈ schema.places, IsPlace name
  qualifiers : ∀ name ∈ schema.qualifiers, isIdentifier name = true

instance : DecidablePred IsPlainSchema := fun schema =>
  decidable_of_iff ((∀ name ∈ schema.places, IsPlace name) ∧
      ∀ name ∈ schema.qualifiers, isIdentifier name = true)
    ⟨fun h => ⟨h.1, h.2⟩, fun h => ⟨h.places, h.qualifiers⟩⟩

theorem holdsSchema_of_isPlainSchema {schema : Schema} (h : IsPlainSchema schema) :
    accepted.HoldsSchema schema :=
  .of_places h.places fun q hq name hname => by
    have word : Faultless name.toList := accepted.word_of_name hname
    have qualifier := balanced_of_isIdentifier (h.qualifiers q hq)
    simpa [accepted] using word.after qualifier (c := '.') (by decide) (by decide)

end Validation

namespace Engine

open Validation

/-- **Queries pass the checks**: the checks find no error in the SQL of a source text, made with the
catalog for a dialect that quotes names in double quotes, if the names of the text and of the schema
are plain and no table or column is called `AND` or `OR` and no string has a backslash. -/
theorem isValid_of_query {e : Engine} (hlib : e.patterns = .builtin)
    (hdialect : e.dialect ∈ quotingDialects) (hschema : ∀ schema ∈ e.schema, IsPlainSchema schema)
    {dax : String} (hplain : ∀ node ∈ (parseSource dax).tree.nodes, IsPlain node) {q : Query}
    (hq : e.query dax = .ok q) (hs : q.success = true) (hown : q.enhancedBy = none) :
    (Validator.checkExpression q.sql).isValid = true := by
  have fits : accepted.Fits e.target := .of_schema hlib fun schema hschema' =>
    holdsSchema_of_isPlainSchema (hschema schema hschema')
  have covers : accepted.CoversAll e.target.dialect (parseSource dax).tree := fun node hnode =>
    covers_of_isPlain hdialect (hplain node hnode) fun name same =>
      isBound_parseSource dax name (same ▸ hnode)
  have composed := Rendering.composed_renderExpr fits covers (renderExpr_of_query hq hs hown)
  exact isValid_of_faultless (faultless_of_composed (fun _ h => h) (fun _ h => h) composed)

/-- A text with quotes, a parenthesis and a comma of its own in a condition. -/
theorem isValid_of_query_sales :
    let e : Engine := { schema := some .retail, dialect := .postgres }
    let dax := "VAR kind = \"or's (\"\"AND,\" " ++
      "RETURN CALCULATE(SUM(Sales[Amount]), Product[Category] = kind)"
    let sql := "(SELECT SUM(sales.amount) FROM sales JOIN dim_product " ++
      "ON sales.product_key = dim_product.product_key " ++
      "WHERE dim_product.category = 'or''s (\"AND,')"
    ∃ q, e.query dax = .ok q ∧ q.sql = sql ∧ (Validator.checkExpression q.sql).isValid = true := by
  intro e dax sql
  have run : (e.query dax).toOption.map (fun q => (q.sql, q.success, q.enhancedBy)) =
      some (sql, true, none) := by
    dsimp only [e, dax, sql]
    rw [PatternLibrary.builtin_eq]
    decide +kernel
  have schema : ∀ schema ∈ e.schema, IsPlainSchema schema := by
    rintro _ ⟨⟩
    decide +kernel
  have mentioned : ∀ node ∈ (parseSource dax).tree.nodes, IsPlain node := by
    decide +kernel
  obtain ⟨q, hq, ends⟩ := exists_of_map_toOption run
  obtain ⟨text, ends⟩ := Prod.mk.inj ends
  obtain ⟨hs, hown⟩ := Prod.mk.inj ends
  exact ⟨q, hq, text, isValid_of_query (by dsimp only [e]) (by decide) schema mentioned hq hs hown⟩

end Engine

end MeasureSql
