import MeasureSql.Proofs.Render.ShownFilters
import MeasureSql.Proofs.Render.Splicing
import MeasureSql.Proofs.Render.Totality
import MeasureSql.Proofs.Sql.Conjunction

/-!
# The conditions of a query

The filters of a call are rendered one by one and joined by `AND`, and none of them is put in
parentheses.  A filter that is an `||` is read as a disjunction, and so the whole clause is one as
soon as another condition stands beside it.  No other operation on columns and literals is read as a
disjunction: an `||` below another operator has parentheses around it.

## Main definitions

* `Dax.Expr.IsOperation` — columns and literals under operators of any kind.
* `Rendering.textOf`, `Rendering.put` — the condition of a filter, and the filters with it.
* `Rendering.conditionsOf` — the conditions in force under the filters of a call.

## Main results

* `Rendering.exists_gives_operation` — an operation is read as a disjunction exactly when it is one.
* `Rendering.conjuncts_calculate` — when the `WHERE` clause is the conjunction of the conditions.
-/

namespace MeasureSql

open Dax Sql.Reading

namespace Sql.Reading

/-! ## Literals -/

/-- The texts of a formula that are the same in all formulas: words, signs and some literals. -/
def fixedTexts : List String :=
  ["NaN", "inf", "-inf", "0.0", "-0.0", "TRUE", "FALSE", "1", "0", "NULL", "AND", "=", "<>", "<",
    "<=", ">", ">=", "+", "-", "*", "/", "||", "POWER", "CONCAT", "NOT", ",", " IS NULL",
    " IS NOT NULL"]

/-- The fixed texts, evaluated: of all words only `OR` makes a disjunction. -/
theorem reads_fixed : (∀ text ∈ fixedTexts, Reads text false) ∧ Reads "OR" true := by
  decide +kernel

/-- A word with a character that is no letter has no role among conditions. -/
theorem wordRole_of_not_isAlpha {text : String} {c : Char} (hmem : c ∈ text.toList)
    (hc : c.isAlpha = false) : wordRole text = .plain := by
  rw [wordRole]
  split
  all_goals first
    | rfl
    | next heq => exact absurd heq (asciiUpper_ne_of_not_isAlpha hmem hc rfl)

/-- A number that may have a sign. -/
theorem reads_signed {cs : List Char} (h : isOperand (String.ofList cs) = true)
    (hrole : wordRole (String.ofList cs) = .plain) {text : String}
    (htext : text.toList = cs ∨ text.toList = '-' :: cs) : Reads text false := by
  rcases htext with htext | htext
  · rw [← htext, String.ofList_toList] at h hrole
    exact .operand h hrole
  · have heq : text = "-" ++ String.ofList cs := by
      rw [← String.toList_inj, htext]
      simp
    rw [heq]
    exact (Reads.operand h hrole).minus (head?_ne_of_isOperand h)

/-- **A number is no disjunction.** -/
theorem reads_magnitude {cs : List Char} (h : IsMagnitude cs) {text : String}
    (htext : text.toList = cs ∨ text.toList = '-' :: cs) : Reads text false := by
  obtain ⟨c, hc, hnumeral⟩ := h.exists_isNumeralChar
  exact reads_signed h.isOperand (wordRole_of_not_isAlpha (by rwa [String.toList_ofList])
    (isAlpha_of_isNumeralChar hnumeral)) htext

theorem reads_write (x : Double) : Reads (x.write .sql) false := by
  have words : ∀ w ∈ ["NaN", "inf"], isOperand (String.ofList w.toList) = true ∧
      wordRole (String.ofList w.toList) = .plain := by
    decide +kernel
  obtain ⟨cs, hcs | ⟨w, hw, rfl⟩, htext⟩ := exists_magnitude_double x
  · exact reads_magnitude hcs htext
  · exact reads_signed (words w hw).1 (words w hw).2 htext

end Sql.Reading

namespace Dax.Expr

/-- The expressions that are built from columns and literals by operators. -/
inductive IsOperation : Expr → Prop
  | literal (value : Literal) : IsOperation (.literal value)
  | column (ref : ColumnRef) : IsOperation (.column ref)
  | unary (op : UnaryOp) {e : Expr} (he : IsOperation e) : IsOperation (.unary op e)
  | binary {l r : Expr} (op : BinaryOp) (hl : IsOperation l) (hr : IsOperation r) :
      IsOperation (.binary l op r)

instance decidableIsOperation : (e : Expr) → Decidable e.IsOperation
  | .literal value => .isTrue (.literal value)
  | .column ref => .isTrue (.column ref)
  | .unary op e =>
    match decidableIsOperation e with
    | .isTrue he => .isTrue (.unary op he)
    | .isFalse hnot => .isFalse fun h => by cases h with | unary _ he => exact hnot he
  | .binary l op r =>
    match decidableIsOperation l, decidableIsOperation r with
    | .isTrue hl, .isTrue hr => .isTrue (.binary op hl hr)
    | .isFalse hnot, _ => .isFalse fun h => by cases h with | binary _ hl _ => exact hnot hl
    | _, .isFalse hnot => .isFalse fun h => by cases h with | binary _ _ hr => exact hnot hr
  | .table _ | .call _ _ | .variable _ _ | .cond _ _ _ | .measure _ _ _ _ => .isFalse nofun

/-- Is the expression an `||`? -/
def isOr : Expr → Bool
  | .binary _ .or _ => true
  | _ => false

end Dax.Expr

namespace Rendering

variable {t : Target} {rows : List String}

/-! ## Operations as conditions -/

/-- **A literal is no disjunction.** -/
theorem reads_literal (d : Dialect) (value : Literal) : Reads (renderLiteral d value) false := by
  cases value with
  | integer n =>
    obtain ⟨cs, hcs, htext⟩ := exists_magnitude_int n
    exact reads_magnitude hcs htext
  | float x => exact reads_write x
  | string s =>
    refine .operand (isOperand_quoteString d s) (wordRole_of_not_isAlpha (c := '\x27') ?_ rfl)
    show '\x27' ∈ (d.quoteString s).toList
    cases d <;> simp [Dialect.quoteString, Sql.quoteSingle, Sql.quoteBetween]
  | boolean b =>
    show Reads (d.boolean b) false
    refine reads_fixed.1 _ ?_
    cases d <;> cases b <;> simp [Dialect.boolean, fixedTexts]
  | blank => exact reads_fixed.1 "NULL" (by simp [fixedTexts])

/-- What an operand is read as: parentheses take a disjunction away. -/
theorem reads_parenthesized {e : Expr} {text : String} (h : Reads text e.isOr) (needed : Bool) :
    Reads (parenthesized needed text) (e.isOr && !needed) := by
  cases needed with
  | true =>
    rw [Bool.not_true, Bool.and_false]
    exact h.paren
  | false =>
    rw [Bool.not_false, Bool.and_true]
    exact h

/-- Below every other operator an `||` has parentheses. -/
theorem isOr_and_not_needsParens {e : Expr} {op : BinaryOp} (hop : op ≠ .or) (onRight : Bool) :
    (e.isOr && !needsParens e op.strength onRight) = false := by
  unfold Expr.isOr
  split
  · cases op with
    | or => exact absurd rfl hop
    | _ => cases onRight <;> rfl
  · rfl

theorem isOr_and_not_signNeedsParens (e : Expr) (text : String) :
    (e.isOr && !signNeedsParens e text) = false := by
  unfold Expr.isOr
  split
  · rfl
  · rfl

/-- An infix operator between two texts, with blanks around it. -/
theorem reads_joined {a b symbol : String} {o o' or : Bool} (ha : Reads a o) (hb : Reads b o')
    (hsymbol : Reads symbol or) :
    Reads (a ++ " " ++ symbol ++ " " ++ b) (o || (or || o')) := by
  have hends : ∀ b : String, EndsRun (" " ++ b).toList := endsRun_append ' ' rfl rfl
  have htext : a ++ " " ++ symbol ++ " " ++ b = a ++ (" " ++ (symbol ++ (" " ++ b))) := by
    simp only [String.append_assoc]
  rw [htext]
  exact ha.append (hsymbol.append hb.blank (hends _)).blank (hends _)

/-- A function of two texts. -/
theorem reads_function {a b function opening : String} {o o' : Bool}
    (hopening : opening = function ++ "(") (hfunction : Reads function false) (ha : Reads a o)
    (hb : Reads b o') : Reads (opening ++ a ++ ", " ++ b ++ ")") false := by
  have hcomma : Reads "," false := reads_fixed.1 _ (by simp [fixedTexts])
  have hlist : Reads (a ++ ("," ++ (" " ++ b))) (o || (false || o')) :=
    ha.append (hcomma.append hb.blank (endsRun_append ' ' rfl rfl _)) (endsRun_append ',' rfl rfl _)
  have htext : opening ++ a ++ ", " ++ b ++ ")" =
      function ++ ("(" ++ (a ++ ("," ++ (" " ++ b))) ++ ")") := by
    rw [hopening, ← String.toList_inj]
    simp
  rw [htext]
  refine hfunction.append hlist.paren ?_
  rw [String.append_assoc]
  exact endsRun_append '(' rfl rfl _

/-- The signs of operators. -/
theorem reads_sqlSymbol {op : BinaryOp} (hpower : op ≠ .power) (hconcat : op ≠ .concat) :
    Reads (sqlSymbol op) (op == .or) := by
  cases op with
  | power => exact absurd rfl hpower
  | concat => exact absurd rfl hconcat
  | or => exact reads_fixed.2
  | _ => exact reads_fixed.1 _ (by simp [sqlSymbol, BinaryOp.symbol, fixedTexts])

theorem reads_concatOperator (d : Dialect) : Reads d.concatOperator false := by
  refine reads_fixed.1 _ ?_
  cases d <;> simp [Dialect.concatOperator, fixedTexts]

/-- Is the name of a column one word, and none that has a role among conditions? -/
def isName (text : String) : Bool :=
  isOperand text && wordRole text == .plain

/-- The end of a test for `NULL`. -/
theorem reads_nullTest {a : String} {o : Bool} (ha : Reads a o) (negated : Bool) :
    Reads (a ++ " IS " ++ (if negated then "NOT " else "") ++ "NULL") o := by
  have htest : Reads (" IS " ++ (if negated then "NOT " else "") ++ "NULL") false := by
    refine reads_fixed.1 _ ?_
    cases negated <;> simp [fixedTexts]
  have htext : a ++ " IS " ++ (if negated then "NOT " else "") ++ "NULL" =
      a ++ (" IS " ++ (if negated then "NOT " else "") ++ "NULL") := by
    simp only [String.append_assoc]
  rw [htext, ← Bool.or_false o]
  refine ha.append htest ?_
  simp only [String.append_assoc]
  exact endsRun_append ' ' rfl rfl _

theorem gives_parenthesized {sub : Expr → Rendering String} {e : Expr} {text : String}
    (h : Gives rows (sub e) text) (parent : Nat) (onRight : Bool) :
    Gives rows (renderOperand sub e parent onRight)
      (parenthesized (needsParens e parent onRight) text) :=
  h.bind (.pure _)

/-- **A binary operation** is a disjunction exactly when its operator is `||`: what stands below any
other operator is none, by its parentheses. -/
theorem exists_gives_renderBinary {sub : Expr → Rendering String} {l r : Expr} {left right : String}
    (op : BinaryOp) (hleft : Gives rows (sub l) left) (hreadsLeft : Reads left l.isOr)
    (hright : Gives rows (sub r) right) (hreadsRight : Reads right r.isOr) :
    ∃ text, Gives rows (renderBinary t sub l op r) text ∧ Reads text (Expr.binary l op r).isOr := by
  have hbelow : ∀ {e : Expr} {text : String} (op : BinaryOp) (onRight : Bool), op ≠ .or →
      Reads text e.isOr → Reads (parenthesized (needsParens e op.strength onRight) text) false := by
    intro e text op onRight hop hreads
    have hoperand := reads_parenthesized hreads (needsParens e op.strength onRight)
    rwa [isOr_and_not_needsParens hop] at hoperand
  rw [renderBinary]
  split
  · next hasks =>
    have hor : (Expr.binary l op r).isOr = false := by
      cases op with
      | or => cases hasks
      | _ => rfl
    rw [hor]
    dsimp only
    split
    · exact ⟨_, (gives_parenthesized hleft _ _).bind (.pure _),
        reads_nullTest (hbelow .lessThan false (by decide) hreadsLeft) _⟩
    · exact ⟨_, (gives_parenthesized hright _ _).bind (.pure _),
        reads_nullTest (hbelow .lessThan false (by decide) hreadsRight) _⟩
  · by_cases hpower : op = .power
    · subst hpower
      have hword : Reads "POWER" false := reads_fixed.1 _ (by simp [fixedTexts])
      have hopening : "POWER(" = "POWER" ++ "(" := by simp
      exact ⟨"POWER(" ++ left ++ ", " ++ right ++ ")", hleft.bind (hright.bind (.pure _)),
        reads_function hopening hword hreadsLeft hreadsRight⟩
    · have hnotPower : (op == .power) = false := by simpa using hpower
      simp only [hnotPower, Bool.false_eq_true, if_false]
      have hoperands : ∀ {f : String → String → Rendering String} {text : String},
          Gives rows (f (parenthesized (needsParens l op.strength false) left)
            (parenthesized (needsParens r op.strength true) right)) text →
          Gives rows (do
            let l ← renderOperand sub l op.strength false
            let r ← renderOperand sub r op.strength true
            f l r) text :=
        fun h => (gives_parenthesized hleft _ _).bind ((gives_parenthesized hright _ _).bind h)
      by_cases hor : op = .or
      · subst hor
        have hsymbol : Reads (sqlSymbol .or) (BinaryOp.or == .or) :=
          reads_sqlSymbol (by decide) (by decide)
        have hreads := reads_joined (reads_parenthesized hreadsLeft (needsParens l 1 false))
          (reads_parenthesized hreadsRight (needsParens r 1 true)) hsymbol
        rw [beq_self_eq_true, Bool.true_or, Bool.or_true] at hreads
        exact ⟨_, hoperands (.pure _), hreads⟩
      · have hl := hbelow op false hor hreadsLeft
        have hr := hbelow op true hor hreadsRight
        have hnotOr : (Expr.binary l op r).isOr = false := by
          cases op with
          | or => exact absurd rfl hor
          | _ => rfl
        rw [hnotOr]
        by_cases hconcat : op = .concat
        · subst hconcat
          cases hoperator : t.dialect.hasConcatOperator with
          | true =>
            exact ⟨_, hoperands (.pure _), reads_joined hl hr (reads_concatOperator t.dialect)⟩
          | false =>
            have hword : Reads "CONCAT" false := reads_fixed.1 _ (by simp [fixedTexts])
            have hopening : "CONCAT(" = "CONCAT" ++ "(" := by simp
            exact ⟨_, hoperands (.pure _), reads_function hopening hword hl hr⟩
        · have hnotConcat : (op == .concat) = false := by simpa using hconcat
          have hsymbol := reads_sqlSymbol hpower hconcat
          have hneOr : (op == .or) = false := by simpa using hor
          rw [hneOr] at hsymbol
          simp only [hnotConcat, Bool.false_eq_true, if_false]
          exact ⟨_, hoperands (.pure _), reads_joined hl hr hsymbol⟩

/-- **An operation is read as a disjunction exactly when it is an `||`.** -/
theorem exists_gives_operation {e : Expr} (he : e.IsOperation)
    (h : ∀ ref ∈ e.columns, isName (columnAt t rows ref).sql = true) :
    ∃ text, Gives rows (renderExpr t e) text ∧ Reads text e.isOr := by
  induction he with
  | literal value => exact ⟨_, .pure _, reads_literal t.dialect value⟩
  | column ref =>
    have hname := h ref List.mem_cons_self
    simp only [isName, Bool.and_eq_true, beq_iff_eq] at hname
    exact ⟨_, (gives_resolveColumn ref).bind (.pure _), .operand hname.1 hname.2⟩
  | @unary op e he ih =>
    obtain ⟨text, hgives, hreads⟩ := ih h
    have hoperand := reads_parenthesized hreads (signNeedsParens e text)
    rw [isOr_and_not_signNeedsParens] at hoperand
    rw [renderExpr_eq]
    cases op with
    | negate =>
      refine ⟨_, hgives.bind (.pure _), hoperand.minus ?_⟩
      rw [parenthesized]
      split
      · simp
      · next hneeds =>
        unfold signNeedsParens at hneeds
        rw [Bool.or_eq_true, not_or] at hneeds
        simpa using hneeds.2
    | not =>
      refine ⟨_, hgives.bind (.pure _), ?_⟩
      have hword : Reads "NOT" false := reads_fixed.1 _ (by simp [fixedTexts])
      have htext : ∀ b : String, "NOT " ++ b = "NOT" ++ (" " ++ b) := fun b => by
        rw [← String.toList_inj]
        simp
      rw [htext]
      exact hword.append hoperand.blank (endsRun_append ' ' rfl rfl _)
  | @binary l r op hl hr ihl ihr =>
    obtain ⟨left, hleft, hreadsLeft⟩ := ihl fun ref href => h ref (List.mem_append_left _ href)
    obtain ⟨right, hright, hreadsRight⟩ := ihr fun ref href => h ref (List.mem_append_right _ href)
    rw [renderExpr_eq]
    exact exists_gives_renderBinary op hleft hreadsLeft hright hreadsRight

/-! ## Filters -/

/-- The condition of a filter among the rows of some tables. -/
def textOf (t : Target) (rows : List String) (e : Expr) : String :=
  match (renderExpr t e { rowTables := rows }).1 with
  | .ok text => text
  | .error _ => ""

/-- The filters with one more, whose condition is put under its first column. -/
def put (t : Target) (rows : List String) (f : FilterContext) (e : Expr) : FilterContext :=
  match e.firstColumn? with
  | some ref =>
    f.add ((columnAt t rows ref).table.getD "") (columnAt t rows ref).column (textOf t rows e)
  | none => f.add "" (textOf t rows e) (textOf t rows e)

theorem put_eq (f : FilterContext) (e : Expr) :
    put t rows f e = f.add (filingPlace t rows e.firstColumn? (textOf t rows e)).1
      (filingPlace t rows e.firstColumn? (textOf t rows e)).2 (textOf t rows e) := by
  unfold put filingPlace
  cases e.firstColumn? <;> rfl

/-- **The conditions in force** under the filters of a call. -/
def conditionsOf (t : Target) (rows : List String) (f : FilterContext) (filters : List Expr) :
    List String :=
  (filters.foldl (put t rows) f).inForce

/-- Every condition, in force or not, can be read. -/
def AllReadable (f : FilterContext) : Prop :=
  ∀ entry ∈ f.entries, ∀ c ∈ entry.2, isReadable c = true

theorem textOf_eq {e : Expr} {text : String} (h : Gives rows (renderExpr t e) text) :
    textOf t rows e = text := by
  obtain ⟨s', hs', -⟩ := h { rowTables := rows } rfl
  rw [textOf, hs']

theorem reads_textOf {e : Expr} (he : e.IsOperation)
    (h : ∀ ref ∈ e.columns, isName (columnAt t rows ref).sql = true) :
    Gives rows (renderExpr t e) (textOf t rows e) ∧ Reads (textOf t rows e) e.isOr := by
  obtain ⟨text, hgives, hreads⟩ := exists_gives_operation he h
  rw [textOf_eq hgives]
  exact ⟨hgives, hreads⟩

/-- One condition more, somewhere. -/
theorem exists_put_eq_add (t : Target) (rows : List String) (f : FilterContext) (e : Expr) :
    ∃ table column, put t rows f e = f.add table column (textOf t rows e) := by
  unfold put
  split
  · exact ⟨_, _, rfl⟩
  · exact ⟨_, _, rfl⟩

theorem AllReadable.put {f : FilterContext} (hf : AllReadable f) {e : Expr}
    (h : isReadable (textOf t rows e) = true) : AllReadable (put t rows f e) := by
  obtain ⟨table, column, hput⟩ := exists_put_eq_add t rows f e
  rw [hput]
  intro entry hentry c hc
  rcases FilterContext.exists_of_mem_addEntry hentry hc with ⟨rfl, -⟩ | ⟨entry', hentry', -, hc'⟩
  · exact h
  · exact hf entry' hentry' c hc'

/-- **The conditions of the filters join those in force**, and all can be read. -/
theorem foldl_put_spec {filters : List Expr} {f : FilterContext} (hf : AllReadable f)
    (h : ∀ e ∈ filters, isReadable (textOf t rows e) = true) :
    AllReadable (filters.foldl (put t rows) f) ∧
      (∀ c ∈ f.inForce, c ∈ conditionsOf t rows f filters) ∧
      ∀ e ∈ filters, textOf t rows e ∈ conditionsOf t rows f filters := by
  induction filters generalizing f with
  | nil => exact ⟨hf, fun c hc => hc, by simp⟩
  | cons e filters ih =>
    obtain ⟨hreadable, hkept, hadded⟩ := ih (hf.put (h e List.mem_cons_self))
      fun e he => h e (List.mem_cons_of_mem _ he)
    obtain ⟨table, column, hput⟩ := exists_put_eq_add t rows f e
    refine ⟨hreadable, fun c hc => hkept c ?_, List.forall_mem_cons.mpr ⟨hkept _ ?_, hadded⟩⟩
    · rw [hput]
      exact FilterContext.mem_inForce_add_of_mem hc
    · rw [hput]
      exact FilterContext.mem_inForce_add f table column _

/-- What gives a value and only makes moves leaves the filters as they were. -/
theorem Gives.keeps {α : Type} {m : Rendering α} {a : α} (h : Gives rows m a) (hled : Led false m)
    {s : RenderState} (hs : s.rowTables = rows) :
    ∃ s', m s = (.ok a, s') ∧ s'.rowTables = rows ∧ s'.filters = s.filters := by
  obtain ⟨s', hrun, hrows⟩ := h s hs
  exact ⟨s', hrun, hrows, (hled.of_ok hrun).filters_eq⟩

theorem applyFilter_of_isOperation {sub : Expr → Rendering String} {e : Expr}
    (he : e.IsOperation) : applyFilter t sub e = addCondition t (sub e) e.firstColumn? := by
  cases he <;> · unfold applyFilter; rfl

/-- **An operation as a filter** puts its condition to the filters in force. -/
theorem run_applyFilter {e : Expr} (he : e.IsOperation)
    (h : ∀ ref ∈ e.columns, isName (columnAt t rows ref).sql = true) {s : RenderState}
    (hs : s.rowTables = rows) :
    ∃ s', applyFilter t (renderExpr t) e s = (.ok (), s') ∧ s'.rowTables = rows ∧
      s'.filters = put t rows s.filters e := by
  obtain ⟨s₁, hrun, hrows, hfilters⟩ := (reads_textOf he h).1.keeps (led_renderExpr t e) hs
  obtain ⟨s₂, hled, -, hadded⟩ := run_addCondition_of_ok (t := t) hrun e.firstColumn?
  rw [applyFilter_of_isOperation he, put_eq]
  refine ⟨_, hadded, hled.rowTables_eq.trans hrows, ?_⟩
  rw [hrows, ← hfilters, ← hled.filters_eq]

theorem run_applyFilters {filters : List Expr} (hfilters : ∀ e ∈ filters, e.IsOperation)
    (h : ∀ e ∈ filters, ∀ ref ∈ e.columns, isName (columnAt t rows ref).sql = true)
    {s : RenderState} (hs : s.rowTables = rows) :
    ∃ s', applyFilters t (renderExpr t) filters s = (.ok (), s') ∧ s'.rowTables = rows ∧
      s'.filters = filters.foldl (put t rows) s.filters := by
  induction filters generalizing s with
  | nil =>
    unfold applyFilters
    exact ⟨s, rfl, hs, rfl⟩
  | cons e filters ih =>
    obtain ⟨s₁, hrun, hrows, hput⟩ :=
      run_applyFilter (hfilters e List.mem_cons_self) (h e List.mem_cons_self) hs
    obtain ⟨s₂, hrun₂, hrows₂, hput₂⟩ := ih (fun e he => hfilters e (List.mem_cons_of_mem _ he))
      (fun e he => h e (List.mem_cons_of_mem _ he)) hrows
    refine ⟨s₂, ?_, hrows₂, by rw [hput₂, hput]; rfl⟩
    unfold applyFilters
    rw [run_bind, hrun]
    exact hrun₂

/-! ## The clause -/

/-- The text of a query over some tables, under conditions. -/
def queryText (text source : String) (conditions : List String) : String :=
  "(SELECT " ++ text ++ " FROM " ++ source ++
    (if conditions = [] then "" else " WHERE " ++ " AND ".intercalate conditions) ++ ")"

/-- The template of a filtered expression, in every dialect. -/
theorem render_calculate {p : Pattern} (hp : p ∈ Catalog.builtin) (hname : p.name = "CALCULATE")
    (d : Dialect) (text source filtered : String) :
    p.render d [("expression", text), ("from", source), ("where", filtered)] =
      .ok ("(SELECT " ++ text ++ " FROM " ++ source ++ filtered ++ ")") := by
  let template := "(SELECT {expression} FROM {from}{where})"
  have htemplate : p.template = template := by
    have hall : ∀ p ∈ Catalog.builtin, p.name = "CALCULATE" → p.template = template := by
      decide +kernel
    exact hall p hp hname
  have hspec : ∀ d ∈ Dialect.all, Template.renameFunctions d template = template ∧
      Template.pieces template = Splice.plain "(SELECT " ++ .hole "expression" ::
        (Splice.plain " FROM " ++ .hole "from" :: .hole "where" :: Splice.plain ")") ∧
      Template.holes template ⊆ ["expression", "from", "where"] := by
    decide +kernel
  obtain ⟨hrename, hpieces, hholes⟩ := hspec d (by cases d <;> decide)
  rw [Pattern.render, htemplate, hrename, Template.fill_eq_ok]
  · refine congrArg Except.ok ?_
    rw [← String.toList_inj, String.toList_ofList, hpieces]
    simp [Splice.flatMap_plain, Template.fillPiece, Pattern.valueOf, List.lookup_cons]
  · intro hole hhole
    have hmem := hholes hhole
    simp only [List.mem_cons, List.not_mem_nil, or_false] at hmem
    rcases hmem with rfl | rfl | rfl <;> simp [Pattern.valueOf, List.lookup_cons]

/-- Conditions that can be read leave no clause empty. -/
theorem intercalate_ne_empty {conditions : List String} (hne : conditions ≠ [])
    (h : ∀ c ∈ conditions, isReadable c = true) : " AND ".intercalate conditions ≠ "" := by
  intro hempty
  obtain ⟨c, hc⟩ := List.exists_mem_of_ne_nil conditions hne
  have hwithin := Text.within_intercalate " AND " hc
  rw [hempty] at hwithin
  have hnone : c = "" := by simpa [Text.Within] using hwithin
  have hreadable := h c hc
  simp [hnone, isReadable, items?, itemsFrom, finished] at hreadable

/-- What is left of a query when there are conditions in force: the clause, or a warning that there
is no table to read from. -/
theorem exists_of_subquery (ht : t.patterns = .builtin) {apply : Rendering Unit}
    {expression : Rendering String} (hled : Led false expression) {s s' : RenderState}
    {sql : String} (hrun : subquery t "CALCULATE" apply expression s = (.ok sql, s')) :
    ∃ s₁ s₂ text, apply { s with scopes := [] :: s.scopes } = (.ok (), s₁) ∧
      expression { s₁ with scopes := [] :: s₁.scopes.tail } = (.ok text, s₂) ∧
      (sql = text ∧ (s₁.filters.whereClause = "" ∨ s'.warnings ≠ []) ∨
        ∃ source, sql = "(SELECT " ++ text ++ " FROM " ++ source ++
          (if s₁.filters.whereClause = "" then "" else " WHERE " ++ s₁.filters.whereClause) ++
            ")") := by
  rw [subquery] at hrun
  obtain ⟨⟨text, tables, conditions⟩, s₀, hinside, hrest⟩ := exists_of_bind hrun
  obtain ⟨s₁, s₂, s₃, happlied, hexpressed, -, -, hconditions, -⟩ :=
    exists_of_underFilters hled hinside
  refine ⟨s₁, s₂, text, happlied, hexpressed, ?_⟩
  rw [← hconditions]
  dsimp only at hrest
  split at hrest
  · left
    split at hrest
    · next hempty =>
      obtain ⟨_, s₄, -, hlast⟩ := exists_of_bind hrest
      cases hlast
      exact ⟨rfl, .inl (by simpa using hempty)⟩
    · obtain ⟨_, s₄, hnoted, hrest⟩ := exists_of_bind hrest
      obtain ⟨_, s₅, hused, hlast⟩ := exists_of_bind hrest
      cases hlast
      -- The warning is there when the pattern is recorded, and stays.
      have hwarned : s₄.warnings ≠ [] := by
        cases hnoted
        exact Leads.addNew_ne_nil _ _
      have hrecords : Led false (usePatternNamed t "CALCULATE") := led_usePatternNamed t _
      exact ⟨rfl, .inr fun hnone => hwarned ((hrecords.of_ok hused).warnings_eq_nil hnone)⟩
  · right
    obtain ⟨source, s₄, -, hrest⟩ := exists_of_bind hrest
    have hmem : "CALCULATE" ∈ Catalog.subqueries := by simp [Catalog.subqueries]
    obtain ⟨p, hp, hget, hname⟩ := exists_get?_of_mem_subqueries hmem
    rw [ht, hget] at hrest
    obtain ⟨_, s₅, -, hfilled⟩ := exists_of_bind hrest
    rw [fillPattern, render_calculate hp hname] at hfilled
    cases hfilled
    refine ⟨source, ?_⟩
    simp only [String.isEmpty_iff]

/-- An operation comes to no function. -/
theorem visited_of_isOperation {e : Expr} (he : e.IsOperation) :
    e.visited = [] ∧ e.filtered = [] := by
  induction he with
  | unary op he ih => simp [Expr.visited, Expr.filtered, ih.1]
  | binary op hl hr ihl ihr => simp [Expr.visited, Expr.filtered, ihl.1, ihr.1]
  | _ => simp [Expr.visited, Expr.filtered]

/-- A filtered expression has a text when its expression has one. -/
theorem exists_run_calculate (ht : t.patterns = .builtin) {name : String}
    (hname : Text.asciiUpper name = "CALCULATE") {expression : Expr} {filters : List Expr}
    (hfilters : ∀ e ∈ filters, e.IsOperation) (hexpression : ¬HasDisguised expression.visited)
    (s : RenderState) :
    ∃ sql s', renderExpr t (.call name (expression :: filters)) s = (.ok sql, s') := by
  have hnone : Expr.filteredAll filters = [] := by
    induction filters with
    | nil => rfl
    | cons e filters ih =>
      obtain ⟨he, hrest⟩ := List.forall_mem_cons.mp hfilters
      simp [Expr.filteredAll, (visited_of_isOperation he).2, ih hrest]
  have hplain : ¬IsDisguised name := not_isDisguised hname rfl
  refine (settles_renderLevels ht _ _ (Nat.le_refl _)).gives ?_ s
  simp [Expr.visited, Expr.visitedCall, hname, hnone, hplain, hexpression]

/-- **When the `WHERE` clause is the conjunction of the conditions.**  The filters of the call join
the conditions that were in force.  If there is a table to read from, the clause is these conditions
joined by `AND`, and their conjuncts are those of the clause exactly when none of them is a
disjunction or there is only one.  The condition of a filter is a disjunction exactly when the
filter is an `||`. -/
theorem conjuncts_calculate (t : Target) (ht : t.patterns = .builtin) (name : String)
    (hname : Text.asciiUpper name = "CALCULATE") (expression : Expr)
    (hexpression : ¬HasDisguised expression.visited) (filters : List Expr)
    (hfilters : ∀ e ∈ filters, e.IsOperation) (s : RenderState) (hs : AllReadable s.filters)
    (hnames : ∀ e ∈ filters, ∀ ref ∈ e.columns, isName (columnAt t s.rowTables ref).sql = true) :
    let conditions := conditionsOf t s.rowTables s.filters filters
    (∃ sql s' s₁ s₂ text,
      renderExpr t (.call name (expression :: filters)) s = (.ok sql, s') ∧
      renderExpr t expression s₁ = (.ok text, s₂) ∧ s₁.rowTables = s.rowTables ∧
      s₁.filters.inForce = conditions ∧ AllReadable s₁.filters ∧
      (sql = text ∧ (conditions = [] ∨ s'.warnings ≠ []) ∨
        ∃ source, sql = queryText text source conditions)) ∧
    (∀ c ∈ s.filters.inForce, c ∈ conditions) ∧
    (∀ e ∈ filters, textOf t s.rowTables e ∈ conditions ∧
      isDisjunction (textOf t s.rowTables e) = e.isOr) ∧
    (conditions ≠ [] → (conjuncts (" AND ".intercalate conditions) = conditions.flatMap conjuncts ↔
      conditions.length ≤ 1 ∨ ∀ c ∈ conditions, isDisjunction c = false)) := by
  intro conditions
  have hreads : ∀ e ∈ filters, Reads (textOf t s.rowTables e) e.isOr :=
    fun e he => (reads_textOf (hfilters e he) (hnames e he)).2
  obtain ⟨hreadable, hkept, hadded⟩ := foldl_put_spec hs fun e he => (hreads e he).1
  have hconditions : ∀ c ∈ conditions, isReadable c = true := by
    intro c hc
    obtain ⟨entry, hentry, -, hc⟩ := FilterContext.mem_inForce.mp hc
    exact hreadable entry hentry c hc
  refine ⟨?_, hkept, fun e he => ⟨hadded e he, (hreads e he).2⟩,
    fun hne => conjuncts_intercalate_iff hne hconditions⟩
  obtain ⟨sql, s', hrun⟩ := exists_run_calculate ht hname hfilters hexpression s
  have hquery := hrun
  rw [renderExpr_eq, renderWith, renderCall, hname] at hquery
  simp only [filteredCall, hname] at hquery
  obtain ⟨s₁, s₂, text, happlied, hexpressed, hsql⟩ :=
    exists_of_subquery ht (led_renderExpr t expression) hquery
  obtain ⟨s₁', happlied', hrows, hput⟩ := run_applyFilters hfilters hnames
    (s := { s with scopes := [] :: s.scopes }) rfl
  rw [happlied] at happlied'
  cases happlied'
  have hclause : s₁.filters.whereClause = " AND ".intercalate conditions := by
    rw [FilterContext.whereClause_eq, hput]
    rfl
  have hempty : " AND ".intercalate conditions = "" ↔ conditions = [] := by
    constructor
    · intro hnone
      by_contra hne
      exact intercalate_ne_empty hne hconditions hnone
    · intro hnone
      rw [hnone]
      rfl
  refine ⟨sql, s', _, s₂, text, hrun, hexpressed, hrows, by rw [hput]; rfl,
    by rw [hput]; exact hreadable, ?_⟩
  simp only [hclause, hempty] at hsql
  exact hsql

/-- The clause of the sales of more than one or in some quantity, in a region: it is written
`sales.amount > 1 OR sales.quantity > 2 AND dim_store.region = 'West'`, which is no conjunction.
With the region alone it is one. -/
theorem conjuncts_calculate_or_region :
    let t : Target := ⟨some .retail, .builtin, .snowflake⟩
    let more (column : String) (n : Int) : Expr :=
      .binary (.column ⟨some "Sales", column⟩) .greaterThan (.literal (.integer n))
    let large : Expr := .binary (more "Amount" 1) .or (more "Quantity" 2)
    let region : Expr :=
      .binary (.column ⟨some "Store", "Region"⟩) .equals (.literal (.string "West"))
    let clause (filters : List Expr) := " AND ".intercalate (conditionsOf t [] .empty filters)
    clause [large, region] =
        "sales.amount > 1 OR sales.quantity > 2 AND dim_store.region = 'West'" ∧
      conjuncts (clause [large, region]) ≠
        (conditionsOf t [] .empty [large, region]).flatMap conjuncts ∧
      conjuncts (clause [region]) = (conditionsOf t [] .empty [region]).flatMap conjuncts := by
  intro t more large region clause
  have hmore : ∀ column n, (more column n).IsOperation := fun _ _ =>
    .binary _ (.column _) (.literal _)
  have hlarge : large.IsOperation := .binary _ (hmore _ _) (hmore _ _)
  have hregion : region.IsOperation := .binary _ (.column _) (.literal _)
  have hexpression :
      ¬HasDisguised (Expr.call "SUM" [.column ⟨some "Sales", "Amount"⟩]).visited := by
    decide +kernel
  have hempty : AllReadable ({} : RenderState).filters := by
    intro entry hentry
    cases hentry
  have ht : t.patterns = .builtin := by dsimp only [t]
  have hname : Text.asciiUpper "CALCULATE" = "CALCULATE" := rfl
  have hnames :
      ∀ e ∈ [large, region], ∀ ref ∈ e.columns, isName (columnAt t [] ref).sql = true := by
    decide +kernel
  have hboth := conjuncts_calculate t ht _ hname _ hexpression [large, region]
    (by simp [hlarge, hregion]) {} hempty hnames
  have hone := conjuncts_calculate t ht _ hname _ hexpression [region] (by simp [hregion]) {} hempty
    fun e he => hnames e (List.mem_cons_of_mem _ he)
  have conditions : conditionsOf t [] .empty [large, region] =
      ["sales.amount > 1 OR sales.quantity > 2", "dim_store.region = 'West'"] := by decide +kernel
  have condition : conditionsOf t [] .empty [region] = ["dim_store.region = 'West'"] := by
    decide +kernel
  have several : ¬(conditionsOf t [] .empty [large, region]).length ≤ 1 := by
    rw [conditions]
    decide
  have nonempty : conditionsOf t [] .empty [large, region] ≠ [] := by
    rw [conditions]
    exact List.cons_ne_nil _ _
  have nonempty' : conditionsOf t [] .empty [region] ≠ [] := by
    rw [condition]
    exact List.cons_ne_nil _ _
  refine ⟨?_, ?_, (hone.2.2.2 nonempty').mpr (.inl (congrArg List.length condition).le)⟩
  · show " AND ".intercalate (conditionsOf t [] .empty [large, region]) = _
    rw [conditions]
    decide
  · intro heq
    rcases (hboth.2.2.2 nonempty).mp heq with hlength | hnone
    · exact several hlength
    · obtain ⟨hmem, hor⟩ := hboth.2.2.1 large (by simp)
      exact absurd ((hnone _ hmem).symm.trans hor) (by decide)

end Rendering

end MeasureSql
