import MeasureSql.Proofs.Render.EchoFilters
import MeasureSql.Proofs.Render.FirstColumn

/-!
# The case of names does not matter

Every rule of rendering does the same with the parts in capitals, and so does a whole expression, by
induction on its height.  Two expressions that differ only in the case of the letters A to Z in the
names of functions, tables and columns are the same in capitals, and therefore have the same SQL,
the same confidence, and use the same patterns and tables.

## Main results

* `echoed_of_covers` — every expression is rendered as it is in capitals, to a text from any
  vocabulary that its names belong to.
* `renderExpr_letterCase` — the case of names does not matter.
-/

namespace MeasureSql

open Dax Sql

/-- All that an expression names belongs to a vocabulary. -/
def Sql.Vocabulary.CoversAll (V : Vocabulary) (d : Dialect) (e : Expr) : Prop :=
  ∀ node ∈ e.nodes, V.Covers d node

namespace Rendering

open List

variable {V : Vocabulary} {t : Target}

/-! ## Operators -/

theorem composed_parenthesized (needed : Bool) {sql : String} (h : Composed V sql) :
    Composed V (parenthesized needed sql) := by
  unfold parenthesized
  split
  · exact h.paren
  · exact h

theorem needsParens_inCapitals (e : Expr) (parent : Nat) (onRight : Bool) :
    needsParens e.inCapitals parent onRight = needsParens e parent onRight := by
  cases e <;> rfl

theorem echoes_renderOperand {e : Expr} (h : Echoed V t e) (parent : Nat) (onRight : Bool) :
    Echoes V t (Composed V) (renderOperand (renderExpr t) e parent onRight)
      (renderOperand (renderExpr t) e.inCapitals parent onRight) := by
  unfold renderOperand
  rw [needsParens_inCapitals]
  exact Echoes.bind h fun _ hsql => .pure (composed_parenthesized _ hsql)

theorem sqlSymbol_mem_leads {op : BinaryOp} (hpower : op ≠ .power) (hconcat : op ≠ .concat) :
    sqlSymbol op ∈ leads := by
  cases op with
  | power => exact absurd rfl hpower
  | concat => exact absurd rfl hconcat
  | _ => decide

/-- A call of a function of two arguments. -/
theorem composed_call_two {f a b : String} (hf : f.toList.all Template.isNamePart = true)
    (ha : Composed V a) (hb : Composed V b) : Composed V (f ++ "(" ++ a ++ ", " ++ b ++ ")") := by
  rw [show f ++ "(" ++ a ++ ", " ++ b ++ ")" = f ++ "(" ++ (a ++ ", " ++ b) ++ ")" by
    simp [← String.toList_inj]]
  exact .applied (V.function_of_run hf) (ha.listed hb)

/-- The test for no value. -/
theorem composed_isNull {sql : String} (h : Composed V sql) (negated : Bool) :
    Composed V (sql ++ " IS " ++ (if negated then "NOT " else "") ++ "NULL") := by
  have null : Composed V "NULL" := .fixed (by simp [fixedWords])
  cases negated with
  | true =>
    have text : sql ++ " IS " ++ "NOT " ++ "NULL" =
        sql ++ " " ++ "IS" ++ " " ++ ("NOT" ++ " " ++ "NULL") := by simp [← String.toList_inj]
    exact text ▸ h.infixed (by simp [leads]) (.led (by simp [leads]) null)
  | false =>
    have text : sql ++ " IS " ++ "" ++ "NULL" = sql ++ " " ++ "IS" ++ " " ++ "NULL" := by
      simp [← String.toList_inj]
    exact text ▸ h.infixed (by simp [leads]) null

theorem echoes_renderBinary {l r : Expr} (op : BinaryOp) (hl : Echoed V t l) (hr : Echoed V t r) :
    Echoes V t (Composed V) (renderBinary t (renderExpr t) l op r)
      (renderBinary t (renderExpr t) l.inCapitals op r.inCapitals) := by
  unfold renderBinary
  rw [Expr.isBlank_inCapitals, Expr.isBlank_inCapitals]
  split
  · dsimp only
    rw [← apply_ite Expr.inCapitals]
    have other : Echoed V t (if r.isBlank = true then l else r) := by
      split
      · exact hl
      · exact hr
    exact (echoes_renderOperand other _ _).bind fun sql hsql => .pure (composed_isNull hsql _)
  · split
    · exact Echoes.bind hl fun _ hbase => Echoes.bind hr fun _ hexponent =>
        .pure (composed_call_two (f := "POWER") (by decide) hbase hexponent)
    · next hpower =>
      refine (echoes_renderOperand hl _ _).bind fun a ha =>
        (echoes_renderOperand hr _ _).bind fun b hb => ?_
      split
      · split
        · refine .pure (ha.infixed ?_ hb)
          cases t.dialect <;> decide
        · exact .pure (composed_call_two (f := "CONCAT") (by decide) ha hb)
      · next hconcat =>
        refine .pure (ha.infixed (sqlSymbol_mem_leads ?_ ?_) hb)
        · simpa using hpower
        · simpa using hconcat

theorem echoes_renderUnary (op : UnaryOp) {e : Expr} (h : Echoed V t e) :
    Echoes V t (Composed V) (renderUnary (renderExpr t) op e)
      (renderUnary (renderExpr t) op e.inCapitals) := by
  have same (sql : String) : signNeedsParens e.inCapitals sql = signNeedsParens e sql := by
    cases e <;> rfl
  refine Echoes.bind h fun sql hsql => ?_
  rw [same]
  cases op with
  | negate =>
    refine .pure (.negated ?_ (composed_parenthesized _ hsql))
    cases signed : signNeedsParens e sql with
    | true => simp [parenthesized]
    | false =>
      have head : (sql.toList.head? == some '-') = false := (Bool.or_eq_false_iff.mp signed).2
      simpa [parenthesized] using head
  | not =>
    exact .pure (.led (by simp [leads] : "NOT" ∈ leads) (composed_parenthesized _ hsql))

theorem echoes_renderTable (ht : V.Fits t) {name : String} (h : V.name (guess name)) :
    Echoes V t (Composed V) (renderTable t name) (renderTable t (Text.asciiUpper name)) := by
  have known : (t.schema?.bind (·.table? (Text.asciiUpper name))).isSome =
      (t.schema?.bind (·.table? name)).isSome := by
    simp only [fun schema : Schema => schema.table?_congr (Text.upper_asciiUpper name)]
  unfold renderTable
  rw [Text.upper_asciiUpper, known]
  dsimp only
  split
  · next word =>
    refine .pure (.fixed ?_)
    rw [Bool.and_eq_true, List.contains_iff_mem] at word
    have words : ∀ w ∈ intervals, Text.lower w ∈ fixedWords := by decide +kernel
    exact words _ word.2
  · split
    · next word =>
      refine .pure (.fixed ?_)
      rw [Bool.and_eq_true, List.contains_iff_mem] at word
      have words : ∀ w ∈ sortOrders, w ∈ fixedWords := by decide
      exact words _ word.2
    · exact (echoes_resolveTable ht h).bind fun _ hname => .pure (composed_fromName ht hname)

theorem echoes_renderCond (ht : V.Fits t) {c a : Expr} {e : Option Expr} (hc : Echoed V t c)
    (ha : Echoed V t a) (he : ∀ x ∈ e.toList, Echoed V t x) :
    Echoes V t (Composed V) (renderCond t (renderExpr t) c a e)
      (renderCond t (renderExpr t) c.inCapitals a.inCapitals (e.map Expr.inCapitals)) := by
  have rest : (e.map Expr.inCapitals).toList = e.toList.map Expr.inCapitals := by cases e <;> rfl
  unfold renderCond
  rw [rest]
  refine Echoes.bind hc fun sql hsql => Echoes.bind ha fun sql' hsql' => ?_
  refine (echoes_renderAll he).bind fun others hothers => ?_
  cases found : t.patterns.get? "IF" with
  | some p =>
    exact echoes_applyPattern ht (mem_builtin ht found)
      (forall_mem_cons.mpr ⟨hsql, forall_mem_cons.mpr ⟨hsql', hothers⟩⟩) (by simp)
  | none =>
    have last : Composed V (others.headD "NULL") := by
      cases others with
      | nil => exact .fixed (by simp [fixedWords])
      | cons other others => exact hothers other mem_cons_self
    have text :
        "CASE WHEN " ++ sql ++ " THEN " ++ sql' ++ " ELSE " ++ others.headD "NULL" ++ " END" =
        "CASE" ++ " " ++ ("WHEN" ++ " " ++ (sql ++ " " ++ "THEN" ++ " " ++
          (sql' ++ " " ++ "ELSE" ++ " " ++ (others.headD "NULL" ++ " " ++ "END")))) := by
      simp [← String.toList_inj]
    refine .pure (text ▸ .led (by simp [leads]) (.led (by simp [leads]) ?_))
    exact hsql.infixed (by simp [leads]) (hsql'.infixed (by simp [leads])
      (last.beside (.fixed (by simp [fixedWords]))))

/-! ## Expressions -/

/-- **Every expression is rendered as it is in capitals**, and its text is put together from any
vocabulary that all its names belong to. -/
theorem echoed_of_covers (ht : V.Fits t) (n : Nat) :
    ∀ e : Expr, e.height ≤ n → V.CoversAll t.dialect e → Echoed V t e := by
  induction n with
  | zero => exact fun e h => absurd (height_pos e) (by omega)
  | succ n ih =>
    intro e hheight hcovers
    have hroot := hcovers e (Expr.mem_nodes e)
    unfold Echoed
    cases e with
    | literal value =>
      rw [Expr.inCapitals, renderExpr_eq]
      exact .pure (.word hroot.1)
    | column ref =>
      rw [Expr.inCapitals, renderExpr_eq, renderExpr_eq]
      exact (echoes_resolveColumn ht hroot).bind fun _ hcolumn => .pure (.word hcolumn.sql)
    | table name =>
      rw [Expr.inCapitals, renderExpr_eq, renderExpr_eq]
      exact echoes_renderTable ht hroot
    | call name args =>
      simp only [Expr.height] at hheight
      rw [Expr.inCapitals_call, renderExpr_eq t (.call name args), renderExpr_eq]
      let P : Expr → Prop := fun x => x.height ≤ n ∧ V.CoversAll t.dialect x
      have parts {f : String} {es : List Expr} (hes : Expr.heightAll es ≤ n)
          (hall : V.CoversAll t.dialect (.call f es)) : ∀ x ∈ es, P x := fun x hx =>
        ⟨(Expr.height_le_heightAll hx).trans hes, fun node hnode =>
          hall node (mem_cons_of_mem _ (Expr.nodes_subset_nodesAll hx hnode))⟩
      have known : Known V t P :=
        { inherited := fun f es h =>
            parts (by have := h.1; simp only [Expr.height] at this; omega) h.2
          covers := fun x hx => hx.2 x (Expr.mem_nodes x)
          column := fun x hx ref href => hx.2 _ (Expr.column_mem_nodes href)
          echoed := fun x hx => ih x hx.1 hx.2 }
      exact echoes_renderCall ht known hroot (parts (by omega) hcovers)
    | binary l op r =>
      simp only [Expr.height] at hheight
      rw [Expr.inCapitals, renderExpr_eq t (.binary l op r), renderExpr_eq]
      exact echoes_renderBinary op
        (ih l (by omega) fun node h => hcovers node (mem_cons_of_mem _ (mem_append_left _ h)))
        (ih r (by omega) fun node h => hcovers node (mem_cons_of_mem _ (mem_append_right _ h)))
    | unary op e =>
      simp only [Expr.height] at hheight
      rw [Expr.inCapitals, renderExpr_eq t (.unary op e), renderExpr_eq]
      exact echoes_renderUnary op
        (ih e (by omega) fun node h => hcovers node (mem_cons_of_mem _ h))
    | «variable» name value =>
      cases value with
      | none =>
        rw [Expr.inCapitals, renderExpr_eq]
        exact (echoes_note _ _ _).bind fun _ _ => .pure (.word (hroot rfl))
      | some value =>
        simp only [Expr.height, Expr.heightOpt] at hheight
        rw [Expr.inCapitals, renderExpr_eq t (.variable name (some value)), renderExpr_eq]
        refine Echoes.bind
          (ih value (by omega) fun node h => hcovers node (mem_cons_of_mem _ h)) fun _ hsql => ?_
        rw [Expr.isBinary_inCapitals]
        exact .pure (composed_parenthesized _ hsql)
    | cond c a e =>
      simp only [Expr.height] at hheight
      rw [Expr.inCapitals, Expr.inCapitalsOpt_eq_map, renderExpr_eq t (.cond c a e), renderExpr_eq]
      refine echoes_renderCond ht
        (ih c (by omega) fun node h => hcovers node (mem_cons_of_mem _
          (mem_append_left _ (mem_append_left _ h))))
        (ih a (by omega) fun node h => hcovers node (mem_cons_of_mem _
          (mem_append_left _ (mem_append_right _ h)))) fun x hx => ?_
      obtain rfl : e = some x := by simpa using hx
      exact ih x (by simp only [Expr.heightOpt] at hheight; omega) fun node h =>
        hcovers node (mem_cons_of_mem _ (mem_append_right _ h))
    | measure name body format description =>
      simp only [Expr.height] at hheight
      rw [Expr.inCapitals, renderExpr_eq t (.measure name body format description), renderExpr_eq]
      refine Echoes.bind (ih body (by omega) fun node h => hcovers node (mem_cons_of_mem _ h))
        fun sql hsql => .pure ?_
      rw [show sql ++ " AS " = sql ++ " " ++ "AS" ++ " " by simp [← String.toList_inj]]
      exact hsql.infixed (by simp [leads]) (.word hroot)

/-! ## Two spellings -/

/-- The vocabulary that every name belongs to. -/
def everything : Vocabulary where
  name _ := True
  word _ := True
  function _ := True
  word_of_name _ := trivial
  word_dotted _ _ := trivial
  word_fixed _ := trivial
  function_of_run _ := trivial
  name_of_key _ := trivial

theorem everything_covers (d : Dialect) (e : Expr) : everything.Covers d e := by
  cases e with
  | literal value => exact ⟨trivial, fun _ _ => trivial⟩
  | column ref => exact ⟨trivial, fun _ _ => trivial⟩
  | «variable» name value => exact fun _ => trivial
  | _ => exact trivial

theorem everything_fits (h : t.patterns = .builtin) : everything.Fits t where
  patterns := h
  schema _ _ := ⟨fun _ _ => ⟨trivial, trivial⟩, fun _ _ _ _ => trivial,
    fun _ _ => ⟨trivial, trivial, trivial, trivial⟩⟩

theorem everything_holds (t : Target) (s : RenderState) : InVocabulary everything t s where
  rows _ _ := trivial
  scopes _ _ _ _ := trivial
  filters := ⟨fun _ _ c _ => .word (a := c) trivial, fun _ _ _ _ => trivial⟩

/-- An expression and the expression in capitals have the same SQL, and differ in warnings only. -/
theorem renderExpr_inCapitals (ht : t.patterns = .builtin) (e : Expr) (s : RenderState) :
    (renderExpr t e.inCapitals s).1 = (renderExpr t e s).1 ∧
      SameButWarnings (renderExpr t e s).2 (renderExpr t e.inCapitals s).2 := by
  have run := echoed_of_covers (everything_fits ht) e.height e le_rfl
    (fun node _ => everything_covers t.dialect node) s s (everything_holds t s) (.refl s)
  exact ⟨run.1, run.2.1⟩

/-- **The case of names does not matter.**  Two expressions that differ only in the case of the
letters A to Z in the names of functions, tables and columns have the same SQL or the same error,
the same confidence, and use the same patterns and tables. -/
theorem renderExpr_letterCase (t : Target) (ht : t.patterns = .builtin) {e e' : Expr}
    (h : e.inCapitals = e'.inCapitals) (s : RenderState) :
    (renderExpr t e s).1 = (renderExpr t e' s).1 ∧
      (renderExpr t e s).2.confidence = (renderExpr t e' s).2.confidence ∧
      (renderExpr t e s).2.patternsApplied = (renderExpr t e' s).2.patternsApplied ∧
      (renderExpr t e s).2.tablesUsed = (renderExpr t e' s).2.tablesUsed := by
  obtain ⟨result, ws, state⟩ := renderExpr_inCapitals ht e s
  obtain ⟨result', ws', state'⟩ := renderExpr_inCapitals ht e' s
  rw [h] at result state
  refine ⟨result.symm.trans result', ?_⟩
  have same : { (renderExpr t e s).2 with warnings := ws } =
      { (renderExpr t e' s).2 with warnings := ws' } := state.symm.trans state'
  obtain ⟨-, -, -, confidence, patterns, tables, -⟩ := RenderState.mk.inj same
  exact ⟨confidence, patterns, tables⟩

/-- The sales of a year, in capitals and as people write it.  The dates are read only because of the
filter, whose key is in capitals. -/
theorem renderExpr_letterCase_sales :
    let capitals : Expr := .call "CALCULATE" [.call "SUM" [.column ⟨some "SALES", "AMOUNT"⟩],
      .binary (.column ⟨some "DATE", "YEAR"⟩) .equals (.literal (.integer 2024))]
    let small : Expr := .call "calculate" [.call "Sum" [.column ⟨some "Sales", "Amount"⟩],
      .binary (.column ⟨some "date", "Year"⟩) .equals (.literal (.integer 2024))]
    let t : Target := ⟨some Schema.retail, .builtin, .snowflake⟩
    (renderExpr t capitals {}).1.toOption = some ("(SELECT SUM(sales.amount) FROM sales " ++
        "JOIN dim_date ON sales.date_key = dim_date.date_key WHERE dim_date.year = 2024)") ∧
      capitals.inCapitals = small.inCapitals ∧
      (renderExpr t capitals {}).1 = (renderExpr t small {}).1 ∧
      (renderExpr t capitals {}).2.confidence = (renderExpr t small {}).2.confidence ∧
      (renderExpr t capitals {}).2.patternsApplied = (renderExpr t small {}).2.patternsApplied ∧
      (renderExpr t capitals {}).2.tablesUsed = (renderExpr t small {}).2.tablesUsed := by
  intro capitals small t
  have spelled : capitals.inCapitals = small.inCapitals := by
    simp only [capitals, small, Expr.inCapitals, Expr.inCapitalsAll, ColumnRef.inCapitals,
      Expr.call.injEq, List.cons.injEq, Expr.binary.injEq, Expr.column.injEq, ColumnRef.mk.injEq,
      and_true]
    decide +kernel
  have builtin : t.patterns = .builtin := by dsimp only [t]
  refine ⟨?_, spelled, renderExpr_letterCase t builtin spelled {}⟩
  dsimp only [t, capitals]
  rw [PatternLibrary.builtin_eq]
  decide +kernel

end Rendering

end MeasureSql
