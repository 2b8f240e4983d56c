import MeasureSql.Proofs.Render.ClearFilters
import MeasureSql.Proofs.Render.Echo

/-!
# Echoes of calls

A rule for calls does the same with the arguments and with the arguments in capitals, if these are
rendered alike, and what it makes of their texts is put together from the vocabulary that the texts
are put together from.

## Main definitions

* `Vocabulary.Covers` — what an expression names itself belongs to a vocabulary.
* `Echoed` — an expression and the expression in capitals are rendered alike.
* `Known` — what is known of the parts of a call.

## Main results

* `echoes_genericCall`, `echoes_iteratorCall`, `echoes_switchCall`, `echoes_projectionCall` — the
  rules of calls that leave the filters alone.
-/

namespace MeasureSql

open Dax Sql

/-- What an expression names at its root belongs to a vocabulary: a name as it is guessed, a text
also as the name of a column. -/
def Sql.Vocabulary.Covers (V : Vocabulary) (d : Dialect) : Expr → Prop
  | .literal value => V.word (Rendering.renderLiteral d value) ∧
      ∀ s, value = .string s → V.word (d.quoteIdentifier s)
  | .column ref => V.HoldsColumn ref
  | .table name => V.name (guess name)
  | .call name _ => V.function (Text.asciiUpper name)
  | .variable name value => value = none → V.word (guess name)
  | .measure name _ _ _ => V.word (d.quoteIdentifier name)
  | .binary _ _ _ | .unary _ _ | .cond _ _ _ => True

namespace Rendering

open List

variable {V : Vocabulary} {t : Target} {α : Type}

/-- **The expression is rendered as it is in capitals**, to a text from the vocabulary. -/
def Echoed (V : Vocabulary) (t : Target) (e : Expr) : Prop :=
  Echoes V t (Composed V) (renderExpr t e) (renderExpr t e.inCapitals)

section Rules

/-! ## Arguments -/

theorem echoes_renderAll {es : List Expr} (h : ∀ e ∈ es, Echoed V t e) :
    Echoes V t (fun sqls => ∀ sql ∈ sqls, Composed V sql) (renderAll (renderExpr t) es)
      (renderAll (renderExpr t) (es.map Expr.inCapitals)) := by
  induction es with
  | nil => exact .pure (by simp)
  | cons e es ih =>
    obtain ⟨he, hes⟩ := forall_mem_cons.mp h
    exact Echoes.bind he fun _ ha => (ih hes).bind fun _ hrest =>
      .pure (forall_mem_cons.mpr ⟨ha, hrest⟩)

theorem isTable_inCapitals (e : Expr) : e.inCapitals.isTable = e.isTable := by
  cases e <;> rfl

theorem isColumn_inCapitals (e : Expr) : e.inCapitals.isColumn = e.isColumn := by
  cases e <;> rfl

/-- A table argument: its text belongs to the vocabulary, and so does its name. -/
theorem echoes_tableArgument (ht : V.Fits t) {e : Expr} (he : V.Covers t.dialect e)
    (h : Echoed V t e) :
    Echoes V t (fun x => Composed V x.1 ∧ ∀ row ∈ x.2, V.name row)
      (tableArgument t (renderExpr t) e) (tableArgument t (renderExpr t) e.inCapitals) := by
  cases htable : e.isTable with
  | true =>
    obtain ⟨name, rfl⟩ := Expr.exists_of_isTable htable
    refine (echoes_resolveTable ht he).bind fun table hname => .pure ?_
    refine ⟨composed_fromName ht hname, ?_⟩
    exact fun row hrow => Option.some.inj hrow ▸ hname
  | false =>
    rw [tableArgument_of_not_isTable _ htable,
      tableArgument_of_not_isTable _ ((isTable_inCapitals e).trans htable)]
    exact Echoes.bind h fun _ ha => .pure ⟨ha, fun row hrow => nomatch hrow⟩

theorem echoes_plainCall {name : String} (hname : V.function (Text.asciiUpper name))
    {args : List Expr} (h : ∀ e ∈ args, Echoed V t e) :
    Echoes V t (Composed V) (plainCall t (renderExpr t) name args)
      (plainCall t (renderExpr t) (Text.asciiUpper name) (args.map Expr.inCapitals)) := by
  have shown : V.function ((t.dialect.renamed? name).getD (Text.asciiUpper name)) := by
    cases renamed : t.dialect.renamed? name with
    | none => exact hname
    | some other =>
      refine V.function_of_run (all_eq_true.mpr ?_)
      exact Template.isNamePart_of_renamed? renamed
  have same : t.dialect.renamed? (Text.asciiUpper name) = t.dialect.renamed? name := by
    simp [Dialect.renamed?]
  unfold plainCall
  rw [Text.asciiUpper_asciiUpper, same]
  exact (echoes_renderAll h).bind fun _ hargs => .pure (.call shown hargs)

theorem echoes_unknownCall {name : String} (hname : V.function (Text.asciiUpper name))
    {args : List Expr} (h : ∀ e ∈ args, Echoed V t e) :
    Echoes V t (Composed V) (unknownCall t (renderExpr t) name args)
      (unknownCall t (renderExpr t) (Text.asciiUpper name) (args.map Expr.inCapitals)) :=
  (echoes_note _ _ _).bind fun _ _ => echoes_plainCall hname h

theorem echoes_malformedCall {name : String} (hname : V.function (Text.asciiUpper name))
    {args : List Expr} (usage : String) (h : ∀ e ∈ args, Echoed V t e) :
    Echoes V t (Composed V) (malformedCall t (renderExpr t) name args usage)
      (malformedCall t (renderExpr t) (Text.asciiUpper name) (args.map Expr.inCapitals) usage) :=
  (echoes_note _ _ _).bind fun _ _ => echoes_plainCall hname h

/-! ## Patterns -/

theorem composed_columnText (ht : V.Fits t) (params : List String) {column : ResolvedColumn}
    (h : ColumnIn V column) : Composed V (columnText t params column) := by
  unfold columnText
  split
  · next owner hown =>
    split
    · exact composed_fromName ht (h.table owner hown)
    · exact .word h.sql
  · exact .word h.sql

theorem echoes_genericArgs (ht : V.Fits t) {args : List Expr} (h : ∀ e ∈ args, Echoed V t e)
    (hcovers : ∀ e ∈ args, V.Covers t.dialect e) (params : List String) {table : Option String}
    (htable : ∀ name ∈ table, V.name name) :
    Echoes V t (fun x => (∀ sql ∈ x.1, Composed V sql) ∧ ∀ name ∈ x.2, V.name name)
      (genericArgs t (renderExpr t) params table args)
      (genericArgs t (renderExpr t) params table (args.map Expr.inCapitals)) := by
  induction args generalizing params table with
  | nil => exact .pure ⟨by simp, htable⟩
  | cons e args ih =>
    obtain ⟨he, hargs⟩ := forall_mem_cons.mp h
    obtain ⟨hcover, hrest⟩ := forall_mem_cons.mp hcovers
    rw [map_cons]
    cases hcolumn : e.isColumn with
    | true =>
      obtain ⟨ref, rfl⟩ := Expr.exists_of_isColumn hcolumn
      rw [Expr.inCapitals, genericArgs_column, genericArgs_column]
      refine (echoes_resolveColumn ht hcover).bind fun column hresolved => ?_
      have first : ∀ name ∈ table.or column.table, V.name name := by
        intro name hname
        rcases Option.or_eq_some_iff.mp hname with hname | ⟨-, hname⟩
        · exact htable name hname
        · exact hresolved.table name hname
      exact (ih hargs hrest _ first).bind fun x hx =>
        .pure ⟨forall_mem_cons.mpr ⟨composed_columnText ht _ hresolved, hx.1⟩, hx.2⟩
    | false =>
      rw [genericArgs_of_not_isColumn _ _ _ hcolumn,
        genericArgs_of_not_isColumn _ _ _ ((isColumn_inCapitals e).trans hcolumn)]
      exact Echoes.bind he fun sql hsql => (ih hargs hrest _ htable).bind fun x hx =>
        .pure ⟨forall_mem_cons.mpr ⟨hsql, hx.1⟩, hx.2⟩

theorem echoes_genericCall (ht : V.Fits t) {name name' : String}
    (hname : V.function (Text.asciiUpper name)) (same : name' = Text.asciiUpper name)
    {args : List Expr} (h : ∀ e ∈ args, Echoed V t e)
    (hcovers : ∀ e ∈ args, V.Covers t.dialect e) :
    Echoes V t (Composed V) (genericCall t (renderExpr t) name args)
      (genericCall t (renderExpr t) name' (args.map Expr.inCapitals)) := by
  subst same
  unfold genericCall
  rw [get?_congr _ (Text.upper_asciiUpper name)]
  cases found : t.patterns.get? name with
  | none => exact echoes_unknownCall hname h
  | some p =>
    exact (echoes_genericArgs ht h hcovers p.params (by simp)).bind fun x hx =>
      echoes_applyPattern ht (mem_builtin ht found) hx.1 hx.2

/-! ## Iterators -/

theorem iterated_inCapitals (source : Expr) :
    iterated source.inCapitals =
      ((iterated source).1.inCapitals, (iterated source).2.map Expr.inCapitals) := by
  cases hfiltered : isFiltered source with
  | true =>
    obtain ⟨f, table, condition, rfl, hfilter⟩ := exists_of_isFiltered hfiltered
    rw [Expr.inCapitals_call]
    simp [iterated, hfilter]
  | false =>
    rw [iterated_of_not_isFiltered hfiltered]
    have other : isFiltered source.inCapitals = false := by
      unfold isFiltered at hfiltered ⊢
      cases source with
      | call f args =>
        rw [Expr.inCapitals_call]
        rcases args with _ | ⟨table, _ | ⟨condition, _ | ⟨third, rest⟩⟩⟩
        · rfl
        · rfl
        · simp only [iterated, map_cons, map_nil, Text.asciiUpper_asciiUpper] at hfiltered ⊢
          split
          · next hfilter => simp [hfilter] at hfiltered
          · rfl
        · rfl
      | _ => rfl
    rw [iterated_of_not_isFiltered other]
    rfl

/-- The value for a row, guarded by the condition on the rows. -/
theorem echoes_guarded {expression : Expr} {condition : Option Expr} (h : Echoed V t expression)
    (hcondition : ∀ c ∈ condition, Echoed V t c) :
    Echoes V t (Composed V)
      (guarded (renderExpr t) expression condition)
      (guarded (renderExpr t) expression.inCapitals (condition.map Expr.inCapitals)) := by
  cases condition with
  | none => exact h
  | some c =>
    refine (h.inTurn (hcondition c rfl)).bind fun (value, guard) ⟨hvalue, hguard⟩ => .pure ?_
    have text : "CASE WHEN " ++ guard ++ " THEN " ++ value ++ " END" = "CASE" ++ " " ++
        ("WHEN" ++ " " ++ (guard ++ " " ++ "THEN" ++ " " ++ (value ++ " " ++ "END"))) := by
      simp [← String.toList_inj]
    rw [text]
    exact .led (by simp [leads]) (.led (by simp [leads])
      (.infixed (by simp [leads]) hguard (.beside hvalue (.fixed (by simp [fixedWords])))))

variable {P : Expr → Prop}

/-- What is known of the parts of a call: each is rendered as it is in capitals, and what it names
belongs to the vocabulary. -/
structure Known (V : Vocabulary) (t : Target) (P : Expr → Prop) : Prop where
  inherited : Inherited P
  covers : ∀ e, P e → V.Covers t.dialect e
  column : ∀ e, P e → ∀ ref ∈ e.firstColumn?, V.HoldsColumn ref
  echoed : ∀ e, P e → Echoed V t e

theorem echoes_iteratorCall (ht : V.Fits t) (hP : Known V t P) {name : String}
    (hname : V.function (Text.asciiUpper name)) {args : List Expr} (hargs : ∀ e ∈ args, P e) :
    Echoes V t (Composed V) (iteratorCall t (renderExpr t) name args)
      (iteratorCall t (renderExpr t) (Text.asciiUpper name) (args.map Expr.inCapitals)) := by
  have h : ∀ e ∈ args, Echoed V t e := fun e he => hP.echoed e (hargs e he)
  unfold iteratorCall
  rw [get?_congr _ (Text.upper_asciiUpper name)]
  cases found : t.patterns.get? name with
  | none => exact echoes_unknownCall hname h
  | some p =>
    rcases args with _ | ⟨source, _ | ⟨expression, rest⟩⟩
    · exact echoes_malformedCall hname _ h
    · exact echoes_malformedCall hname _ h
    · obtain ⟨htable, hcondition⟩ := hP.inherited.iterated (hargs source (by simp))
      have hexpression : Echoed V t expression := h expression (by simp)
      have hrest : ∀ e ∈ rest, Echoed V t e := fun e he => h e (by simp [he])
      simp only [map_cons, iterated_inCapitals, Option.isSome_map]
      split
      case' isTrue => refine (echoes_usePatternNamed rfl).bind fun _ _ => ?_
      all_goals
        refine (echoes_tableArgument ht (hP.covers _ htable) (hP.echoed _ htable)).bind ?_
        rintro ⟨sql, row⟩ ⟨hsql, hrow⟩
        refine ((echoes_guarded hexpression fun c hc =>
          hP.echoed c (hcondition c hc)).withRow hrow).bind fun value hvalue => ?_
        refine (echoes_renderAll hrest).bind fun sqls hsqls => ?_
        exact echoes_applyPattern ht (mem_builtin ht found)
          (forall_mem_cons.mpr ⟨hsql, forall_mem_cons.mpr ⟨hvalue, hsqls⟩⟩) hrow

/-! ## Conditionals on values -/

theorem echoes_switchCases {args : List Expr} (h : ∀ e ∈ args, Echoed V t e) :
    Echoes V t (fun cases => (∀ c ∈ cases, Composed V c) ∧ (args ≠ [] → cases ≠ []))
      (switchCases (renderExpr t) args)
      (switchCases (renderExpr t) (args.map Expr.inCapitals)) := by
  fun_induction switchCases (renderExpr t) args with
  | case1 => exact .pure (by simp)
  | case2 last =>
    refine Echoes.bind (h last (by simp)) fun sql hsql => .pure ⟨?_, by simp⟩
    exact forall_mem_singleton.mpr (.led (by simp [leads] : "ELSE" ∈ leads) hsql)
  | case3 value result rest ih =>
    refine Echoes.bind (h value (by simp)) fun sql hsql => ?_
    refine Echoes.bind (h result (by simp)) fun sql' hsql' => ?_
    refine (ih fun e he => h e (by simp [he])).bind fun cases hcases => .pure ⟨?_, by simp⟩
    refine forall_mem_cons.mpr ⟨?_, hcases.1⟩
    have text : "WHEN " ++ sql ++ " THEN " ++ sql' =
        "WHEN" ++ " " ++ (sql ++ " " ++ "THEN" ++ " " ++ sql') := by
      simp [← String.toList_inj]
    rw [text]
    exact .led (by simp [leads]) (.infixed (by simp [leads]) hsql hsql')

theorem isTrue_inCapitals (e : Expr) : isTrue e.inCapitals = isTrue e := by
  cases e <;> rfl

theorem echoes_switchCall (ht : V.Fits t) {name : String}
    (hname : V.function (Text.asciiUpper name)) {args : List Expr} (h : ∀ e ∈ args, Echoed V t e) :
    Echoes V t (Composed V) (switchCall t (renderExpr t) name args)
      (switchCall t (renderExpr t) (Text.asciiUpper name) (args.map Expr.inCapitals)) := by
  rcases args with _ | ⟨subject, _ | ⟨first, _ | ⟨second, rest⟩⟩⟩
  · exact echoes_malformedCall hname _ h
  · exact echoes_malformedCall hname _ h
  · exact echoes_malformedCall hname _ h
  · obtain ⟨hsubject, hcases⟩ := forall_mem_cons.mp h
    refine (echoes_switchCases hcases).bind fun cases hcases => ?_
    have inside : Composed V (" ".intercalate cases) :=
      .intercalate (by simp [separators]) (hcases.2 (by simp)) hcases.1
    have closed {front : String} (hfront : Composed V front) : Composed V (front ++ " END") := by
      rw [show front ++ " END" = front ++ " " ++ "END" by simp [← String.toList_inj]]
      exact hfront.beside (.fixed (by simp [fixedWords]))
    dsimp only
    rw [isTrue_inCapitals]
    split
    · exact (echoes_usePatternNamed rfl).bind fun _ _ =>
        .pure (closed (.led (by simp [leads] : "CASE" ∈ leads) inside))
    · refine Echoes.bind hsubject fun value hvalue => ?_
      cases found : t.patterns.get? "SWITCH" with
      | some p =>
        refine (echoes_usePattern p).bind fun _ _ => echoes_fillPattern (mem_builtin ht found) ?_
        exact forall_mem_cons.mpr ⟨.of_composed (by simp) hvalue,
          forall_mem_singleton.mpr (.of_composed (by simp) inside)⟩
      | none =>
        have text : "CASE " ++ value ++ " " ++ " ".intercalate cases ++ " END" =
            "CASE" ++ " " ++ (value ++ " " ++ " ".intercalate cases) ++ " END" := by
          simp [← String.toList_inj]
        refine .pure ?_
        rw [text]
        exact closed (.led (by simp [leads]) (hvalue.beside inside))

/-! ## Projections -/

theorem isText_inCapitals (e : Expr) : e.inCapitals.isText = e.isText := by
  cases e <;> rfl

theorem echoes_projected {args : List Expr} (h : ∀ e ∈ args, Echoed V t e)
    (hcovers : ∀ e ∈ args, V.Covers t.dialect e) :
    Echoes V t (fun x => (∀ sql ∈ x.1, Composed V sql) ∧ ∀ sql ∈ x.2, Composed V sql)
      (projected t (renderExpr t) args)
      (projected t (renderExpr t) (args.map Expr.inCapitals)) := by
  fun_induction projected t (renderExpr t) args with
  | case1 => exact .pure (by simp)
  | case2 label value rest ih =>
    refine Echoes.bind (h value (by simp)) fun sql hsql => ?_
    refine (ih (fun e he => h e (by simp [he])) fun e he => hcovers e (by simp [he])).bind
      fun x hx => .pure ⟨hx.1, forall_mem_cons.mpr ⟨?_, hx.2⟩⟩
    have quoted := (hcovers (.literal (.string label)) (by simp)).2 label rfl
    rw [show sql ++ " AS " = sql ++ " " ++ "AS" ++ " " by simp [← String.toList_inj]]
    exact hsql.infixed (by simp [leads]) (.word quoted)
  | case3 e rest hne ih =>
    have plain : rest.isEmpty = true ∨ e.isText = false := by
      cases hrest : rest.isEmpty with
      | true => exact .inl rfl
      | false =>
        obtain ⟨value, rest', rfl⟩ := exists_cons_of_ne_nil (l := rest) (by rintro rfl; cases hrest)
        right
        unfold Expr.isText
        split
        · next label => exact (hne label value rest' rfl rfl).elim
        · rfl
    rw [map_cons, projected_of_not_label _
      (plain.imp (fun empty => by simpa using empty) (isText_inCapitals e).trans)]
    refine Echoes.bind (h e (by simp)) fun sql hsql => ?_
    exact (ih (fun e he => h e (by simp [he])) fun e he => hcovers e (by simp [he])).bind
      fun x hx => .pure ⟨forall_mem_cons.mpr ⟨hsql, hx.1⟩, hx.2⟩

/-- A query in parentheses. -/
theorem composed_selection {columns source : String} (hcolumns : Composed V columns)
    (hsource : Composed V source) :
    Composed V ("(SELECT " ++ columns ++ " FROM " ++ source ++ ")") := by
  have text : "(SELECT " ++ columns ++ " FROM " ++ source ++ ")" =
      "(" ++ ("SELECT" ++ " " ++ (columns ++ " " ++ "FROM" ++ " " ++ source)) ++ ")" := by
    simp [← String.toList_inj]
  rw [text]
  exact .paren (.led (by simp [leads]) (hcolumns.infixed (by simp [leads]) hsource))

/-- A query in parentheses that returns each row once. -/
theorem composed_distinct {columns source : String} (hcolumns : Composed V columns)
    (hsource : Composed V source) :
    Composed V ("(SELECT DISTINCT " ++ columns ++ " FROM " ++ source ++ ")") := by
  have text : "(SELECT DISTINCT " ++ columns ++ " FROM " ++ source ++ ")" =
      "(SELECT " ++ ("DISTINCT" ++ " " ++ columns) ++ " FROM " ++ source ++ ")" := by
    simp [← String.toList_inj]
  rw [text]
  exact composed_selection (.led (by simp [leads]) hcolumns) hsource

theorem echoes_projectionCall (ht : V.Fits t) {name : String}
    (hname : V.function (Text.asciiUpper name)) {args : List Expr} (h : ∀ e ∈ args, Echoed V t e)
    (hcovers : ∀ e ∈ args, V.Covers t.dialect e) :
    Echoes V t (Composed V) (projectionCall t (renderExpr t) name args)
      (projectionCall t (renderExpr t) (Text.asciiUpper name) (args.map Expr.inCapitals)) := by
  unfold projectionCall
  rw [get?_congr _ (Text.upper_asciiUpper name)]
  cases found : t.patterns.get? name with
  | none => exact echoes_unknownCall hname h
  | some p =>
    cases args with
    | nil => exact echoes_malformedCall hname _ h
    | cons source rest =>
      obtain ⟨hsource, hrest⟩ := forall_mem_cons.mp h
      obtain ⟨hcover, hcovers⟩ := forall_mem_cons.mp hcovers
      refine (echoes_tableArgument ht hcover hsource).bind ?_
      rintro ⟨sql, row⟩ ⟨hsql, hrow⟩
      refine ((echoes_projected hrest hcovers).alongRow hrow).bind ?_
      rintro ⟨plain, named⟩ ⟨hplain, hnamed⟩
      refine (echoes_usePattern p).bind fun _ _ => ?_
      have hp := mem_builtin ht found
      dsimp only at hsql hplain hnamed ⊢
      have list {columns : List String} (ne : columns ≠ []) (h : ∀ c ∈ columns, Composed V c) :
          Composed V (", ".intercalate columns) :=
        .intercalate (by simp [separators]) ne h
      have all : ∀ c ∈ plain ++ named, Composed V c :=
        fun c hc => (mem_append.mp hc).elim (hplain c) (hnamed c)
      have star : Composed V "*" := .fixed (by simp [fixedWords])
      have some_of (full : ¬(plain.isEmpty && named.isEmpty) = true) : plain ++ named ≠ [] := by
        simpa using full
      split
      · split
        · have text : "(SELECT DISTINCT * FROM " = "(SELECT DISTINCT " ++ "*" ++ " FROM " := by simp
          rw [text]
          exact .pure (composed_distinct star hsql)
        · next full =>
          split
          · exact .pure (composed_distinct (list (some_of full) all) hsql)
          · next hnamed' =>
            split
            · exact .pure (composed_selection (list (some_of full) all) hsql)
            · next hplain' =>
              refine echoes_fillPattern hp (forall_mem_cons.mpr ⟨.of_composed (by simp) hsql,
                forall_mem_cons.mpr ⟨.of_composed (by simp) (list ?_ hplain),
                  forall_mem_singleton.mpr (.of_composed (by simp) (list ?_ hnamed))⟩⟩)
              · simpa using hplain'
              · simpa using hnamed'
      · split
        · have text : "(SELECT * FROM " = "(SELECT " ++ "*" ++ " FROM " := by simp
          rw [text]
          exact .pure (composed_selection star hsql)
        · next full =>
          exact echoes_fillPattern hp (forall_mem_cons.mpr ⟨.of_composed (by simp) hsql,
            forall_mem_singleton.mpr (.of_composed (by simp) (list (some_of full) all))⟩)

end Rules

end Rendering

end MeasureSql
