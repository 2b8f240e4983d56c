import Mathlib.Data.List.Chain
import MeasureSql.Proofs.Render.Literal
import MeasureSql.Proofs.Render.Mentioned

/-!
# No comment begins

Two minus signs in a row begin a comment that hides the rest of a line.  If no name and no text that
an expression or its schema mentions has a minus sign, two of them never stand side by side: a sign
is written before a text that begins with none, and between any other two texts that are put
together stands a character that is no sign.

## Main definitions

* `NoComment` — no two minus signs in a row.

## Main results

* `noComment_of_composed` — texts from words without comments have none.
* `noComment_renderExpr` — SQL has no comment.
-/

namespace MeasureSql

open Dax

namespace Sql

/-- No two minus signs stand side by side. -/
def NoComment (cs : List Char) : Prop :=
  cs.IsChain fun a b => ¬(a = '-' ∧ b = '-')

namespace NoComment

variable {xs ys : List Char} {c : Char}

theorem of_not_mem (h : '-' ∉ xs) : NoComment xs := by
  induction xs with
  | nil => exact .nil
  | cons c cs ih =>
    rw [List.mem_cons, not_or] at h
    exact List.isChain_cons.mpr ⟨fun _ _ same => h.1 same.1.symm, ih h.2⟩

theorem not_pair (h : NoComment xs) : ¬['-', '-'] <:+: xs := fun inside => by
  have pair := List.IsChain.infix h inside
  simp at pair

/-- A sign before a text that begins with none. -/
theorem minus (hhead : xs.head? ≠ some '-') (h : NoComment xs) : NoComment ('-' :: xs) :=
  List.isChain_cons.mpr ⟨fun _ hy same => hhead (same.2 ▸ hy), h⟩

theorem cons (hc : c ≠ '-') (h : NoComment xs) : NoComment (c :: xs) :=
  List.isChain_cons.mpr ⟨fun _ _ same => hc same.1, h⟩

/-- Two texts with a character between them that is no sign. -/
theorem append_cons (hx : NoComment xs) (hc : c ≠ '-') (hy : NoComment ys) :
    NoComment (xs ++ c :: ys) :=
  List.isChain_append.mpr ⟨hx, hy.cons hc, fun _ _ _ hd same => by
    obtain rfl := Option.some.inj hd
    exact hc same.2⟩

end NoComment

theorem noComment_leads : ∀ lead ∈ leads, NoComment lead.toList := by
  unfold NoComment
  decide +kernel

theorem noComment_fixedWords : ∀ word ∈ fixedWords, NoComment word.toList := by
  unfold NoComment
  decide +kernel

/-- **Texts from words without comments have none**, if no function has a minus sign. -/
theorem noComment_of_composed {V : Vocabulary} (hword : ∀ w, V.word w → NoComment w.toList)
    (hfunction : ∀ f, V.function f → '-' ∉ f.toList) {a : String} (h : Composed V a) :
    NoComment a.toList := by
  induction h with
  | word h => exact hword _ h
  | led h _ ih => simpa using (noComment_leads _ h).append_cons (c := ' ') (by decide) ih
  | beside _ _ iha ihb => simpa using iha.append_cons (c := ' ') (by decide) ihb
  | listed _ _ iha ihb =>
    simpa using iha.append_cons (c := ',') (by decide) (ihb.cons (c := ' ') (by decide))
  | paren _ ih =>
    simpa using (ih.append_cons (c := ')') (by decide) .nil).cons (c := '(') (by decide)
  | applied hf _ ih =>
    simpa using (NoComment.of_not_mem (hfunction _ hf)).append_cons (c := '(') (by decide)
      (ih.append_cons (c := ')') (by decide) .nil)
  | called hf =>
    simpa using (NoComment.of_not_mem (hfunction _ hf)).append_cons (c := '(') (by decide)
      (NoComment.of_not_mem (by decide : '-' ∉ [')']))
  | negated hhead _ ih => simpa using ih.minus hhead

/-- The vocabulary of names without minus signs and words without comments. -/
def unsigned : Vocabulary where
  name a := '-' ∉ a.toList
  word a := NoComment a.toList
  function f := '-' ∉ f.toList
  word_of_name h := .of_not_mem h
  word_dotted ha hb := .of_not_mem (by simpa using ⟨ha, hb⟩)
  word_fixed h := noComment_fixedWords _ h
  function_of_run h mem := by
    have part := List.all_eq_true.mp h _ mem
    exact absurd part (by decide)
  name_of_key h mem := by
    have upper := Text.mem_of_mem_lower mem rfl
    rw [String.toList_ofList] at upper
    exact h (Text.mem_of_mem_upper ((List.takeWhile_sublist _).subset upper) rfl)

/-! ## Literals -/

theorem not_mem_quoteIdentifier {s : String} (h : '-' ∉ s.toList) (d : Dialect) :
    '-' ∉ (d.quoteIdentifier s).toList := by
  cases d <;> exact not_mem_quoteBetween (by decide) (by decide) h

theorem not_mem_quoteString {s : String} (h : '-' ∉ s.toList) (d : Dialect) :
    '-' ∉ (d.quoteString s).toList := by
  have single : '-' ∉ (quoteSingle s).toList := not_mem_quoteBetween (by decide) (by decide) h
  cases d <;> simp [Dialect.quoteString, single]

namespace Reading

theorem not_mem_of_isNumeralChar {cs : List Char} (h : ∀ c ∈ cs, isNumeralChar c = true) :
    '-' ∉ cs :=
  fun mem => absurd (h _ mem) (by decide)

theorem head?_ne_of_not_mem {cs : List Char} (h : '-' ∉ cs) : cs.head? ≠ some '-' :=
  fun hhead => h (List.mem_of_mem_head? hhead)

theorem noComment_int (n : Int) : NoComment (toString n).toList := by
  obtain ⟨ds, -, hds, htext⟩ := exists_digits_int n
  have digits := not_mem_of_isNumeralChar hds
  rcases htext with htext | htext
  · exact htext ▸ .of_not_mem digits
  · exact htext ▸ (NoComment.of_not_mem digits).minus (head?_ne_of_not_mem digits)

/-- A number without a sign has a minus sign only in its exponent. -/
theorem IsMagnitude.noComment {cs : List Char} (h : IsMagnitude cs) :
    NoComment cs ∧ cs.head? ≠ some '-' := by
  cases h with
  | numeral hne h =>
    have digits := not_mem_of_isNumeralChar h
    exact ⟨.of_not_mem digits, head?_ne_of_not_mem digits⟩
  | @scientific cs hne h exponent =>
    have digits := not_mem_of_isNumeralChar h
    refine ⟨(NoComment.of_not_mem digits).append_cons (by decide) (noComment_int exponent), ?_⟩
    rw [List.head?_append_of_ne_nil _ hne]
    exact head?_ne_of_not_mem digits

theorem noComment_double (x : Double) : NoComment (x.write .sql).toList := by
  have words : ∀ w ∈ ["NaN", "inf"], '-' ∉ w.toList := by decide +kernel
  obtain ⟨cs, hcs, htext⟩ := exists_magnitude_double x
  have unsigned : NoComment cs ∧ cs.head? ≠ some '-' := by
    rcases hcs with hcs | ⟨w, hw, rfl⟩
    · exact hcs.noComment
    · exact ⟨.of_not_mem (words w hw), head?_ne_of_not_mem (words w hw)⟩
  rcases htext with htext | htext
  · exact htext ▸ unsigned.1
  · exact htext ▸ unsigned.1.minus unsigned.2

end Reading

end Sql

namespace Rendering

open Sql

/-- An expression belongs to the vocabulary if it mentions no minus sign. -/
theorem unsigned_covers (d : Dialect) {e : Expr}
    (h : ∀ s ∈ e.places ++ e.labels ++ e.texts, '-' ∉ s.toList) : unsigned.Covers d e := by
  have guessed {name : String} (hname : '-' ∉ name.toList) : '-' ∉ (guess name).toList :=
    fun mem => hname (mem_of_mem_guess mem rfl)
  cases e with
  | literal value =>
    cases value with
    | integer n => exact ⟨Reading.noComment_int n, by simp⟩
    | float x => exact ⟨Reading.noComment_double x, by simp⟩
    | string s =>
      have text : '-' ∉ s.toList := h s (by simp [Expr.places, Expr.labels, Expr.texts])
      refine ⟨.of_not_mem (not_mem_quoteString text d), ?_⟩
      rintro _ ⟨⟩
      exact .of_not_mem (not_mem_quoteIdentifier text d)
    | boolean b =>
      refine ⟨.of_not_mem ?_, by simp⟩
      cases d <;> cases b <;> simp [renderLiteral, Dialect.boolean]
    | blank => exact ⟨noComment_fixedWords "NULL" (by simp [fixedWords]), by simp⟩
  | column ref =>
    refine ⟨guessed (h _ (by simp [Expr.places])), fun table htable => guessed (h _ ?_)⟩
    simp [Expr.places, Option.mem_def.mp htable]
  | table name => exact guessed (h _ (by simp [Expr.places]))
  | call name args =>
    exact fun mem =>
      h name (by simp [Expr.places, Expr.labels]) (Text.mem_of_mem_asciiUpper mem rfl)
  | «variable» name value =>
    exact fun _ => .of_not_mem (guessed (h _ (by simp [Expr.places, Expr.labels])))
  | measure name body format description =>
    exact .of_not_mem (not_mem_quoteIdentifier (h _ (by simp [Expr.places, Expr.labels])) d)
  | _ => trivial

/-- **SQL has no comment**: two minus signs in a row stand nowhere in the SQL of an expression, in
any dialect, if no name and no text of the expression and no name of the schema has a minus sign. -/
theorem noComment_renderExpr {t : Target} (ht : t.patterns = .builtin)
    (hschema : ∀ schema ∈ t.schema, ∀ name ∈ schema.places ++ schema.qualifiers, '-' ∉ name.toList)
    {e : Expr} (he : ∀ node ∈ e.nodes, ∀ s ∈ node.places ++ node.labels ++ node.texts,
      '-' ∉ s.toList)
    {sql : String} (h : (renderExpr t e {}).1 = .ok sql) : ¬['-', '-'] <:+: sql.toList := by
  have fits : unsigned.Fits t := .of_schema ht fun schema hs =>
    .of_places (fun name hname => hschema schema hs name (List.mem_append_left _ hname))
      fun q hq name hname => .of_not_mem (by
        simpa using ⟨hschema schema hs q (List.mem_append_right _ hq), hname⟩)
  have composed := composed_renderExpr fits (fun node hnode => unsigned_covers _ (he node hnode)) h
  exact (noComment_of_composed (fun _ h => h) (fun _ h => h) composed).not_pair

/-- Three minus signs stand apart, although the template of one function is nothing but its
argument. -/
theorem noComment_renderExpr_signs :
    let t : Target := ⟨some .retail, .builtin, .postgres⟩
    let e : Expr := .binary (.column ⟨some "Sales", "Amount"⟩) .subtract
      (.unary .negate (.call "RELATED" [.unary .negate (.literal (.integer (-5)))]))
    let sql := "sales.amount - -(-(-5))"
    (renderExpr t e {}).1 = .ok sql ∧ ¬['-', '-'] <:+: sql.toList := by
  intro t e sql
  have rendered : (renderExpr t e {}).1 = .ok sql := by
    dsimp only [t, e, sql]
    rw [PatternLibrary.builtin_eq]
    decide +kernel
  have schema : ∀ schema ∈ t.schema, ∀ name ∈ schema.places ++ schema.qualifiers,
      '-' ∉ name.toList := by
    rintro _ ⟨⟩
    decide +kernel
  have mentioned : ∀ node ∈ e.nodes, ∀ s ∈ node.places ++ node.labels ++ node.texts,
      '-' ∉ s.toList := by
    decide +kernel
  exact ⟨rendered, noComment_renderExpr (by dsimp only [t]) schema mentioned rendered⟩

end Rendering

end MeasureSql
