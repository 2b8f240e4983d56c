import MeasureSql.Proofs.Dax.Pieces
import MeasureSql.Proofs.Number.Digits
import MeasureSql.Proofs.Render.Written

/-!
# Arithmetic is read back

The SQL of an expression of numbers, truth values and operators is an expression of the expression
language again, and it is the same one.  So the strengths by which parentheses are set in SQL are
those by which the parser groups, and no sign meets another one.  Only `NOT` before a parenthesis
comes back as a call of that name.

## Main definitions

* `Dax.Expr.IsArithmetic` — expressions of literals and operators.
* `Dax.Expr.negated` — calls of `NOT` as signs.
* `Rendering.sqlWords` — the words of the SQL text.
* `Rendering.reread` — the expression as it is read back.

## Main results

* `Rendering.writes_written` — the SQL text is cut into its words.
* `Rendering.readsAs` — the words derive the expression, calls of `NOT` aside.
* `Rendering.parse_renderExpr` — the SQL text is parsed as the expression.
-/

namespace MeasureSql

open Dax

namespace Dax.Expr

/-- The expressions of whole numbers, truth values and operators; a power and the joining of texts
are no operators in SQL. -/
inductive IsArithmetic : Expr → Prop
  | integer {n : Int} (nonnegative : 0 ≤ n) (fits : n < 2 ^ 63) :
      IsArithmetic (.literal (.integer n))
  | boolean (b : Bool) : IsArithmetic (.literal (.boolean b))
  | unary (op : UnaryOp) {e : Expr} (he : IsArithmetic e) : IsArithmetic (.unary op e)
  | binary {op : BinaryOp} (hpower : op ≠ .power) (hconcat : op ≠ .concat) {l r : Expr}
      (hl : IsArithmetic l) (hr : IsArithmetic r) : IsArithmetic (.binary l op r)

/-- A call, or the sign that it stands for. -/
def negatedCall (name : String) (args : List Expr) : Expr :=
  match args with
  | [e] => if name = "NOT" then .unary .not e else .call name [e]
  | _ => .call name args

mutual

/-- Every call of `NOT` as the sign. -/
def negated : Expr → Expr
  | .literal value => .literal value
  | .column ref => .column ref
  | .table name => .table name
  | .call name args => negatedCall name (negatedAll args)
  | .binary l op r => .binary l.negated op r.negated
  | .unary op e => .unary op e.negated
  | .variable name value => .variable name (negatedOpt value)
  | .cond c t e => .cond c.negated t.negated (negatedOpt e)
  | .measure name body format description => .measure name body.negated format description

/-- Every call of `NOT` in a list as the sign. -/
def negatedAll : List Expr → List Expr
  | [] => []
  | e :: es => e.negated :: negatedAll es

/-- Every call of `NOT` in an optional part as the sign. -/
def negatedOpt : Option Expr → Option Expr
  | none => none
  | some e => some e.negated

end

/-- Is it an operation? -/
def isOperation : Expr → Bool
  | .binary _ _ _ | .unary _ _ => true
  | _ => false

end Dax.Expr

namespace Rendering

/-- Words in parentheses, if need be. -/
def enclosedIf (needed : Bool) (ws : List Word) : List Word :=
  if needed then enclosed ws else ws

/-- The word that an operator is written as in SQL. -/
def sqlWord : BinaryOp → Word
  | .and => (.and, "AND")
  | .or => (.or, "OR")
  | op => op.word

/-- The words of the SQL text of an arithmetic expression. -/
def sqlWords : Expr → List Word
  | .literal (.integer n) => [(.integer, toString n)]
  | .literal (.boolean b) => [if b then (.trueWord, "TRUE") else (.falseWord, "FALSE")]
  | .unary .negate e => (.minus, "-") :: enclosedIf e.isOperation (sqlWords e)
  | .unary .not e => (.not, "NOT") :: enclosedIf e.isOperation (sqlWords e)
  | .binary l op r => joined (enclosedIf (needsParens l op.strength false) (sqlWords l))
      (sqlWord op) (enclosedIf (needsParens r op.strength true) (sqlWords r))
  | _ => []

/-- The expression as it is read back: `NOT` before a parenthesis is a call. -/
def reread : Expr → Expr
  | .unary .not e => if e.isOperation then .call "NOT" [reread e] else .unary .not (reread e)
  | .unary .negate e => .unary .negate (reread e)
  | .binary l op r => .binary (reread l) op (reread r)
  | e => e

/-! ## The text -/

section Text

variable {t : Target} {rows : List String}

theorem isFormula_of_isArithmetic {e : Expr} (he : e.IsArithmetic) : e.IsFormula := by
  induction he with
  | integer nonnegative fits => exact .literal _
  | boolean b => exact .literal _
  | unary op he ih => exact .unary op ih
  | binary hpower hconcat hl hr ihl ihr => exact .binary _ hconcat ihl ihr

theorem isBlank_of_isArithmetic {e : Expr} (he : e.IsArithmetic) : e.isBlank = false := by
  cases he <;> rfl

/-- The text of an operation. -/
theorem text_written_binary {op : BinaryOp} (hpower : op ≠ .power) (hconcat : op ≠ .concat)
    {l r : Expr} (hl : l.IsArithmetic) (hr : r.IsArithmetic) :
    (written t rows (.binary l op r)).text =
      parenthesized (needsParens l op.strength false) (written t rows l).text ++ " " ++
        sqlSymbol op ++ " " ++
        parenthesized (needsParens r op.strength true) (written t rows r).text := by
  have known : Expr.asksForValue l op r = false := by
    simp [Expr.asksForValue, isBlank_of_isArithmetic hl, isBlank_of_isArithmetic hr]
  simp only [written, known, Bool.false_eq_true, if_false, hpower, operation, Sql.Reading.Tree.text,
    spaced_sqlOp hpower hconcat, text_wrapped, String.append_assoc]

/-- Only a sign begins with a minus. -/
theorem head?_text_written (snowflake : t.dialect = .snowflake) {e : Expr} (he : e.IsArithmetic)
    (single : e.isOperation = false) :
    (written t rows e).text.toList.head? ≠ some '-' := by
  cases he with
  | @integer n nonnegative fits =>
    rw [written, text_literalTree, renderLiteral, toString_of_nonneg nonnegative,
      String.toList_ofList]
    intro minus
    have digit := isDigit_of_mem_toDigits (List.mem_of_mem_head? minus)
    exact absurd digit (by decide)
  | boolean b =>
    rw [written, text_literalTree, renderLiteral, snowflake]
    cases b <;> decide
  | unary => cases single
  | binary => cases single

theorem signNeedsParens_written (snowflake : t.dialect = .snowflake) {e : Expr}
    (he : e.IsArithmetic) :
    signNeedsParens e (written t rows e).text = e.isOperation := by
  cases operation : e.isOperation with
  | true => cases he <;> first | rfl | cases operation
  | false =>
    have head : (written t rows e).text.toList.head? ≠ some '-' :=
      head?_text_written snowflake he operation
    cases he <;> first | simpa [signNeedsParens] using head | cases operation

theorem writes_parenthesized {text : String} {ws : List Word} (h : Writes text ws)
    (needed : Bool) : Writes (parenthesized needed text) (enclosedIf needed ws) := by
  cases needed with
  | true => exact h.enclosed
  | false => exact h

theorem cutsOff_sqlSymbol (op : BinaryOp) (rest : List Char) :
    CutsOff ((sqlSymbol op).toList ++ ' ' :: rest) [sqlWord op] (' ' :: rest) := by
  cases op with
  | and => exact writes_word (by decide) _ (by simp [delimiters])
  | or => exact writes_word (by decide) _ (by simp [delimiters])
  | _ => exact cutsOff_operator _ rest

/-- **The SQL text is cut into its words.** -/
theorem writes_written (snowflake : t.dialect = .snowflake) {e : Expr} (he : e.IsArithmetic) :
    Writes (written t rows e).text (sqlWords e) := by
  induction he with
  | @integer n nonnegative fits =>
    rw [written, text_literalTree, sqlWords, renderLiteral, toString_of_nonneg nonnegative]
    exact writes_integer Nat.toDigits_ne_nil fun c => isDigit_of_mem_toDigits
  | boolean b =>
    rw [written, text_literalTree, sqlWords, renderLiteral, snowflake]
    cases b with
    | true =>
      have word : isWord "TRUE" = true := by decide
      exact writes_word word
    | false =>
      have word : isWord "FALSE" = true := by decide
      exact writes_word word
  | @unary op e he ih =>
    cases op with
    | negate =>
      rw [written, Sql.Reading.Tree.text, text_wrapped, signNeedsParens_written snowflake he]
      refine (writes_parenthesized ih _).minus ?_
      cases operation : e.isOperation with
      | true => simp [parenthesized]
      | false => exact head?_text_written snowflake he operation
    | not =>
      have word : isWord "NOT" = true := by decide
      have kind : TokenKind.ofWord "NOT" = .not := by decide
      have before := (writes_parenthesized ih e.isOperation).before word
      rw [kind] at before
      rw [written, Sql.Reading.Tree.text, text_wrapped, signNeedsParens_written snowflake he]
      exact before
  | binary hpower hconcat hl hr ihl ihr =>
    rw [text_written_binary hpower hconcat hl hr]
    exact (writes_parenthesized ihl _).joined (cutsOff_sqlSymbol _) (writes_parenthesized ihr _)

end Text

/-! ## The words -/

section Words

/-- The level of the operator on top; a sign and a literal have that of operands. -/
def topLevel : Expr → Nat
  | .binary _ op _ => op.strength
  | _ => 7

theorem joinsAt_sqlWord {op : BinaryOp} (hpower : op ≠ .power) :
    JoinsAt (sqlWord op).1 op op.strength := by
  cases op with
  | power => exact absurd rfl hpower
  | _ => constructor

theorem strength_le_six {op : BinaryOp} (hpower : op ≠ .power) : op.strength ≤ 6 := by
  cases op with
  | power => exact absurd rfl hpower
  | _ => decide

/-- What the words of an expression derive. -/
structure ReadsAs (e : Expr) : Prop where
  top : Says (sqlWords e) (.level (topLevel e) (reread e))
  signed : e.isBinary = false → Says (sqlWords e) (.signed (reread e))
  primary : e.isOperation = false → Says (sqlWords e) (.primary (reread e))

variable {e : Expr}

/-- In parentheses an expression is an operand. -/
theorem ReadsAs.enclosed (h : ReadsAs e) : Says (enclosed (sqlWords e)) (.primary (reread e)) :=
  h.top.expression_level.enclosed

/-- **An operand stands at the level that its place asks for.** -/
theorem ReadsAs.operand (h : ReadsAs e) {level : Nat} (low : level ≤ 6) (onRight : Bool) :
    Says (enclosedIf (needsParens e level onRight) (sqlWords e))
      (.level (if onRight then level + 1 else level) (reread e)) := by
  have place : (if onRight then level + 1 else level) ≤ 7 := by
    split <;> omega
  cases needed : needsParens e level onRight with
  | true => exact Says.weaken place (.operand h.enclosed.call_primary.signed_call)
  | false =>
    refine h.top.weaken ?_
    cases e with
    | binary l op r =>
      simp only [needsParens, Bool.or_eq_false_iff, decide_eq_false_iff_not, Nat.not_lt,
        Bool.and_eq_false_imp, beq_eq_false_iff_ne, ne_eq] at needed
      rw [topLevel]
      split
      · next right =>
        have apart := needed.2 right
        omega
      · exact needed.1
    | _ => exact place

/-- The operand of a sign. -/
theorem ReadsAs.signOperand (h : ReadsAs e) :
    Says (enclosedIf e.isOperation (sqlWords e)) (.signed (reread e)) := by
  cases operation : e.isOperation with
  | true => exact h.enclosed.call_primary.signed_call
  | false => exact (h.primary operation).call_primary.signed_call

theorem ReadsAs.of_signed {op : UnaryOp}
    (h : Says (sqlWords (.unary op e)) (.signed (reread (.unary op e)))) :
    ReadsAs (.unary op e) where
  top := .operand h
  signed _ := h
  primary single := by cases single

theorem ReadsAs.of_primary (single : e.isOperation = false)
    (h : Says (sqlWords e) (.primary (reread e))) : ReadsAs e where
  top := by
    have level : topLevel e = 7 := by
      cases e <;> first | rfl | cases single
    rw [level]
    exact .operand h.call_primary.signed_call
  signed _ := h.call_primary.signed_call
  primary _ := h

/-- **The words derive the expression**, where `NOT` before a parenthesis is a call. -/
theorem readsAs {e : Expr} (he : e.IsArithmetic) : ReadsAs e := by
  induction he with
  | @integer n nonnegative fits =>
    refine .of_primary rfl (.literal (.integer rfl ?_))
    have small : n.toNat < 2 ^ 63 := by omega
    have read := readIntegerLiteral?_toDigits small
    rw [← toString_of_nonneg nonnegative, Int.toNat_of_nonneg nonnegative] at read
    exact read
  | boolean b =>
    refine .of_primary rfl (.constant ?_)
    cases b with
    | true => exact .true
    | false => exact .false
  | @unary op e he ih =>
    refine .of_signed ?_
    cases op with
    | negate => exact .negate rfl ih.signOperand
    | not =>
      have operand := ih.signOperand
      rw [reread, sqlWords]
      cases operation : e.isOperation with
      | true => exact ih.top.expression_level.notCall.signed_call
      | false =>
        rw [operation] at operand
        refine .not rfl ?_ operand
        cases he with
        | integer => rfl
        | boolean b => cases b <;> rfl
        | unary => cases operation
        | binary => cases operation
  | @binary op hpower hconcat l r hl hr ihl ihr =>
    have low := strength_le_six hpower
    have top := (ihl.operand low false).joined (joinsAt_sqlWord hpower) (ihr.operand low true)
    exact ⟨top, nofun, nofun⟩

end Words

/-! ## Reading back -/

/-- What is read back is the expression, calls of `NOT` aside. -/
theorem negated_reread {e : Expr} (he : e.IsArithmetic) : (reread e).negated = e := by
  induction he with
  | integer nonnegative fits => rfl
  | boolean b => rfl
  | @unary op e he ih =>
    cases op with
    | negate => rw [reread, Expr.negated, ih]
    | not =>
      rw [reread]
      split
      · rw [Expr.negated, Expr.negatedAll, Expr.negatedAll, ih]
        rfl
      · rw [Expr.negated, ih]
  | binary hpower hconcat hl hr ihl ihr => rw [reread, Expr.negated, ihl, ihr]

/-- **The renderer and the parser agree on how operators bind**: the SQL of every arithmetic
expression, from every state and for every schema and library, is parsed without a failure, and as
the expression, where a call of `NOT` stands for the sign. -/
theorem parse_renderExpr {t : Target} (snowflake : t.dialect = .snowflake) {e : Expr}
    (he : e.IsArithmetic) (s : RenderState) :
    ∃ sql, (renderExpr t e s).1 = .ok sql ∧ (parse sql).failure = none ∧
      (parse sql).tree.negated = e := by
  have gives : Gives s.rowTables (renderLevels t e.height e) (written t s.rowTables e).text :=
    gives_renderLevels (isFormula_of_isArithmetic he) (Nat.le_refl _)
  obtain ⟨s', rendered, -⟩ := gives s rfl
  have writes : Writes (written t s.rowTables e).text (sqlWords e) := writes_written snowflake he
  obtain ⟨success, tree⟩ := parse_iff_cuts.mpr ⟨_, writes.cuts, (readsAs he).top.expression_level⟩
  refine ⟨_, by rw [renderExpr, rendered], success, ?_⟩
  rw [tree, negated_reread he]

/-- `-(-1) - NOT (TRUE = (2 < 3))` is read back. -/
theorem parse_renderExpr_signs :
    let e : Expr := .binary (.unary .negate (.unary .negate (.literal (.integer 1)))) .subtract
      (.unary .not (.binary (.literal (.boolean true)) .equals
        (.binary (.literal (.integer 2)) .lessThan (.literal (.integer 3)))))
    ∃ sql, (renderExpr ⟨none, .builtin, .snowflake⟩ e {}).1 = .ok sql ∧
      (parse sql).failure = none ∧ (parse sql).tree.negated = e := by
  intro e
  refine parse_renderExpr rfl ?_ {}
  have number : ∀ n : Int, 0 ≤ n → n < 2 ^ 63 → (Expr.literal (.integer n)).IsArithmetic :=
    fun n nonnegative fits => .integer nonnegative fits
  refine .binary (by decide) (by decide) (.unary _ (.unary _ (number 1 (by decide) (by decide)))) ?_
  exact .unary _ (.binary (by decide) (by decide) (.boolean true)
    (.binary (by decide) (by decide) (number 2 (by decide) (by decide))
      (number 3 (by decide) (by decide))))

end Rendering

end MeasureSql
