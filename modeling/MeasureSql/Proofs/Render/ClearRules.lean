import MeasureSql.Proofs.Render.Alike
import MeasureSql.Proofs.Render.Clear

/-!
# Calls without their variables

A rule does the same with the arguments of a call and with these arguments without their variables,
as long as the shapes that it looks for are in sight.  What is said of the texts of the arguments is
then true of the text of the call: it is the same relation, kept from part to whole.

## Main definitions

* `Carried` — an expression and the expression without its variables are rendered alike.

## Main results

* `both_genericCall`, `both_iteratorCall`, `both_switchCall`, `both_projectionCall` — the rules of
  calls.
* `both_applyFilters`, `both_subquery` — filters, and an expression under its own filters.
-/

namespace MeasureSql.Rendering

open Dax List

/-- **The expression is rendered as it is without its variables**, up to a relation between
texts. -/
def Carried (t : Target) (S R : String → String → Prop) (e : Expr) : Prop :=
  Both S R (renderExpr t e) (renderExpr t e.inlined)

theorem Carried.imp {t : Target} {S R R' : String → String → Prop} {e : Expr}
    (h : Carried t S R e) (hR : ∀ a a', R a a' → R' a a') : Carried t S R' e :=
  Both.imp h hR

section Rules

variable {t : Target} {S R : String → String → Prop}

/-! ## Arguments -/

theorem both_renderAll {es : List Expr} (h : ∀ e ∈ es, Carried t S R e) :
    Both S (Forall₂ R) (renderAll (renderExpr t) es)
      (renderAll (renderExpr t) (es.map Expr.inlined)) := by
  induction es with
  | nil => exact .pure .nil
  | cons e es ih =>
    obtain ⟨he, hes⟩ := forall_mem_cons.mp h
    exact Both.bind he fun _ _ ha => (ih hes).bind fun _ _ hrest => .pure (.cons ha hrest)

theorem tableArgument_of_not_isTable (sub : Expr → Rendering String) {e : Expr}
    (h : e.isTable = false) :
    tableArgument t sub e = (do let sql ← sub e; pure (sql, none)) := by
  cases e with
  | table name => cases h
  | _ => rfl

theorem both_tableArgument (hR : Congruence R) {e : Expr} (h : Carried t S R e)
    (hshows : e.shows Expr.isTable = true) :
    Both S (fun x x' => R x.1 x'.1 ∧ x.2 = x'.2) (tableArgument t (renderExpr t) e)
      (tableArgument t (renderExpr t) e.inlined) := by
  have hsame := Expr.eq_of_shows hshows
  cases htable : e.isTable with
  | true =>
    obtain ⟨name, rfl⟩ := Expr.exists_of_isTable htable
    exact (both_resolveTable t name).bind_eq fun _ => .pure ⟨hR.refl _, rfl⟩
  | false =>
    rw [tableArgument_of_not_isTable _ htable, tableArgument_of_not_isTable _ (hsame.trans htable)]
    exact Both.bind h fun _ _ ha => .pure ⟨ha, rfl⟩

theorem both_plainCall (hR : Congruence R) (name : String) {args : List Expr}
    (h : ∀ e ∈ args, Carried t S R e) :
    Both S R (plainCall t (renderExpr t) name args)
      (plainCall t (renderExpr t) name (args.map Expr.inlined)) :=
  (both_renderAll h).bind fun _ _ hargs => .pure (hR.around _ (hR.intercalate _ hargs) _)

theorem both_unknownCall (hR : Congruence R) (name : String) {args : List Expr}
    (h : ∀ e ∈ args, Carried t S R e) :
    Both S R (unknownCall t (renderExpr t) name args)
      (unknownCall t (renderExpr t) name (args.map Expr.inlined)) :=
  (both_note _ _).bind_eq fun _ => both_plainCall hR name h

theorem both_malformedCall (hR : Congruence R) (name : String) {args : List Expr} (usage : String)
    (h : ∀ e ∈ args, Carried t S R e) :
    Both S R (malformedCall t (renderExpr t) name args usage)
      (malformedCall t (renderExpr t) name (args.map Expr.inlined) usage) :=
  (both_note _ _).bind_eq fun _ => both_plainCall hR name h

/-! ## Patterns -/

theorem both_fillPattern (hR : Congruence R) (p : Pattern) {b b' : Bindings}
    (h : BindingsAlike R b b') : Both S R (fillPattern t p b) (fillPattern t p b') := by
  unfold fillPattern Pattern.render
  obtain ⟨a, a', hfill, hfill', ha⟩ | ⟨err, hfill, hfill'⟩ :=
    fill_alike hR p.name (Template.renameFunctions t.dialect p.template)
      (valueOf_alike hR p t.dialect h)
  · rw [hfill, hfill']
    exact .pure ha
  · rw [hfill, hfill']
    exact .fail err

/-- The table of the arguments matters only to a pattern that makes something of it. -/
theorem both_applyPattern (hR : Congruence R) (p : Pattern) {args args' : List String}
    (hargs : Forall₂ R args args') {table table' : Option String}
    (htable : takesTable p = true → table = table') :
    Both S R (applyPattern t p args table) (applyPattern t p args' table') := by
  obtain ⟨hbindings, hmissing, hextra⟩ := bind_alike hR p hargs
  have hfill : ∀ {b b' : Bindings}, BindingsAlike R b b' →
      Both S R (do usePattern t p; fillPattern t p b) (do usePattern t p; fillPattern t p b') :=
    fun h => (both_usePattern t p).bind_eq fun _ => both_fillPattern hR p h
  unfold applyPattern
  dsimp only
  rw [hmissing, hextra, hbindings.contains "table"]
  refine (both_noteMissing _ _).bind_eq fun _ => .ite ((both_note _ _).bind_eq fun _ => ?_) ?_
  all_goals
    split
    · next hneeds =>
      rw [Bool.and_eq_true] at hneeds
      obtain rfl := htable (by rw [takesTable, hneeds.2, Bool.or_true])
      cases table with
      | some name => exact hfill (hbindings.insert _ (hR.refl _))
      | none => exact (both_note _ _).bind_eq fun _ => hfill (hbindings.insert _ (hR.refl _))
    · exact hfill hbindings

/-- The text of a column as an argument: its table, where a table is asked for. -/
def columnText (t : Target) (params : List String) (column : ResolvedColumn) : String :=
  match column.table with
  | some owner => if params.head? == some "table" then t.fromName owner else column.sql
  | none => column.sql

theorem genericArgs_column (sub : Expr → Rendering String) (params : List String)
    (table : Option String) (ref : ColumnRef) (rest : List Expr) :
    genericArgs t sub params table (.column ref :: rest) = (do
      let column ← resolveColumn t ref
      let x ← genericArgs t sub params.tail (table.or column.table) rest
      pure (columnText t params column :: x.1, x.2)) :=
  rfl

theorem genericArgs_of_not_isColumn (sub : Expr → Rendering String) (params : List String)
    (table : Option String) {e : Expr} (h : e.isColumn = false) (rest : List Expr) :
    genericArgs t sub params table (e :: rest) = (do
      let sql ← sub e
      let x ← genericArgs t sub params.tail table rest
      pure (sql :: x.1, x.2)) := by
  cases e with
  | column ref => cases h
  | _ => rfl

/-- A column behind a variable is a text like any other, where no table is asked for. -/
theorem Carried.column {e : Expr} {ref : ColumnRef} (h : Carried t S R e)
    (hcolumn : e.inlined = .column ref) :
    Both S (fun a column => R a column.sql) (renderExpr t e) (resolveColumn t ref) := by
  have hrender : renderExpr t (.column ref) = (do
      let resolved ← resolveColumn t ref
      pure resolved.sql) := renderExpr_eq t _
  intro s s' hs
  obtain ⟨hresult, hstate⟩ := h s s' hs
  rw [hcolumn, hrender, run_bind] at hresult hstate
  generalize renderExpr t e s = x, resolveColumn t ref s' = x' at hresult hstate
  obtain ⟨result, u⟩ := x
  obtain ⟨err | column, u'⟩ := x'
  · refine ⟨?_, hstate⟩
    cases hresult with
    | error => exact .error err
  · refine ⟨?_, hstate⟩
    cases hresult with
    | ok ha => exact .ok ha

theorem columnText_of_not_mem {params : List String} (h : "table" ∉ params)
    (column : ResolvedColumn) : columnText t params column = column.sql := by
  have hhead : (params.head? == some "table") = false := by
    cases params with
    | nil => rfl
    | cons param params => simpa using fun heq => h (by simp [heq])
  unfold columnText
  rw [hhead]
  cases column.table <;> rfl

theorem both_genericArgs (hR : Congruence R) {takes : Bool} {args : List Expr}
    (h : ∀ e ∈ args, Carried t S R e)
    (hshows : takes = true → ∀ e ∈ args, e.shows Expr.isColumn = true) (params : List String)
    (hparams : takes = false → "table" ∉ params) {table table' : Option String}
    (htable : takes = true → table = table') :
    Both S (fun x x' => Forall₂ R x.1 x'.1 ∧ (takes = true → x.2 = x'.2))
      (genericArgs t (renderExpr t) params table args)
      (genericArgs t (renderExpr t) params table' (args.map Expr.inlined)) := by
  induction args generalizing params table table' with
  | nil => exact .pure ⟨.nil, htable⟩
  | cons e args ih =>
    obtain ⟨he, hargs⟩ := forall_mem_cons.mp h
    have hrest {table table' : Option String} (htable : takes = true → table = table')
        {a a' : String} (ha : R a a') :=
      (ih hargs (fun hp => (forall_mem_cons.mp (hshows hp)).2) params.tail
        (fun hp hmem => hparams hp (mem_of_mem_tail hmem)) htable).bind fun x x' hx =>
          Both.pure (S := S) (R := fun x x' => Forall₂ R x.1 x'.1 ∧ (takes = true → x.2 = x'.2))
            (a := (a :: x.1, x.2)) (b := (a' :: x'.1, x'.2)) ⟨.cons ha hx.1, hx.2⟩
    rw [map_cons]
    cases hcolumn : e.isColumn with
    | true =>
      obtain ⟨ref, rfl⟩ := Expr.exists_of_isColumn hcolumn
      rw [Expr.inlined, genericArgs_column, genericArgs_column]
      exact (both_resolveColumn t ref).bind_eq fun column =>
        hrest (fun hp => by rw [htable hp]) (hR.refl _)
    | false =>
      rw [genericArgs_of_not_isColumn _ _ _ hcolumn]
      cases hcolumn' : e.inlined.isColumn with
      | false =>
        rw [genericArgs_of_not_isColumn _ _ _ hcolumn']
        exact Both.bind he fun _ _ ha => hrest htable ha
      | true =>
        obtain ⟨ref, href⟩ := Expr.exists_of_isColumn hcolumn'
        cases takes with
        | true =>
          have hsame := Expr.eq_of_shows ((forall_mem_cons.mp (hshows rfl)).1)
          exact absurd (hsame.symm.trans hcolumn') (by simp [hcolumn])
        | false =>
          rw [href, genericArgs_column]
          refine (he.column href).bind fun a column ha => hrest (fun hp => nomatch hp) ?_
          rwa [columnText_of_not_mem (hparams rfl)]

theorem both_genericCall (hR : Congruence R) (name : String) {args : List Expr}
    (h : ∀ e ∈ args, Carried t S R e) (hclear : clearGeneric t name args = true) :
    Both S R (genericCall t (renderExpr t) name args)
      (genericCall t (renderExpr t) name (args.map Expr.inlined)) := by
  unfold genericCall
  unfold clearGeneric at hclear
  cases hp : t.patterns.get? name with
  | none => exact both_unknownCall hR name h
  | some p =>
    rw [hp] at hclear
    have hshows : takesTable p = true → ∀ e ∈ args, e.shows Expr.isColumn = true := by
      intro htakes
      simpa [htakes] using hclear
    have hparams : takesTable p = false → "table" ∉ p.params := by
      intro htakes hmem
      simp [takesTable, hmem] at htakes
    exact (both_genericArgs hR h hshows p.params hparams fun _ => rfl).bind fun x x' hx =>
      both_applyPattern hR p hx.1 hx.2

/-! ## Iterators -/

theorem iterated_of_not_isFiltered {e : Expr} (h : isFiltered e = false) :
    iterated e = (e, none) := by
  unfold isFiltered at h
  unfold iterated at h ⊢
  split
  · next f table condition =>
    split
    · next hfilter => simp [hfilter] at h
    · rfl
  · rfl

theorem exists_of_isFiltered {e : Expr} (h : isFiltered e = true) :
    ∃ f table condition,
      e = .call f [table, condition] ∧ (Text.asciiUpper f == "FILTER") = true := by
  unfold isFiltered iterated at h
  split at h
  · next f table condition =>
    split at h
    · next hfilter => exact ⟨f, table, condition, rfl, hfilter⟩
    · cases h
  · cases h

/-- A filtered table and its condition without their variables. -/
theorem iterated_inlined {source : Expr} (h : source.shows isFiltered = true) :
    iterated source.inlined =
      ((iterated source).1.inlined, (iterated source).2.map Expr.inlined) := by
  cases hfiltered : isFiltered source with
  | true =>
    obtain ⟨f, table, condition, rfl, hfilter⟩ := exists_of_isFiltered hfiltered
    rw [Expr.inlined_call]
    simp [iterated, hfilter]
  | false =>
    rw [iterated_of_not_isFiltered hfiltered,
      iterated_of_not_isFiltered ((Expr.eq_of_shows h).trans hfiltered)]
    rfl

theorem both_guarded (hR : Congruence R) {expression : Expr} {condition : Option Expr}
    (hexpression : Carried t S R expression) (hcondition : ∀ c ∈ condition, Carried t S R c) :
    Both S R (guarded (renderExpr t) expression condition)
      (guarded (renderExpr t) expression.inlined (condition.map Expr.inlined)) := by
  cases condition with
  | none => exact hexpression
  | some c =>
    refine (hexpression.inTurn (hcondition c rfl)).bind fun x y ⟨hvalue, hguard⟩ => .pure ?_
    exact hR.append (hR.append (hR.around _ hguard _) hvalue) (hR.refl _)

/-- The parts of a call have a property that the call has. -/
def Inherited (P : Expr → Prop) : Prop :=
  ∀ name args, P (.call name args) → ∀ e ∈ args, P e

theorem Inherited.iterated {P : Expr → Prop} (hP : Inherited P) {source : Expr} (h : P source) :
    P (iterated source).1 ∧ ∀ c ∈ (Rendering.iterated source).2, P c := by
  cases hfiltered : isFiltered source with
  | true =>
    obtain ⟨f, table, condition, rfl, hfilter⟩ := exists_of_isFiltered hfiltered
    have hargs := hP _ _ h
    simp [Rendering.iterated, hfilter, hargs]
  | false =>
    rw [iterated_of_not_isFiltered hfiltered]
    exact ⟨h, fun c hc => nomatch hc⟩

variable {P : Expr → Prop}

theorem both_iteratorCall (hR : Congruence R) (hP : Inherited P)
    (hsub : ∀ e, P e → Carried t S R e) (name : String) {args : List Expr}
    (hargs : ∀ e ∈ args, P e) (hclear : clearIterator t name args = true) :
    Both S R (iteratorCall t (renderExpr t) name args)
      (iteratorCall t (renderExpr t) name (args.map Expr.inlined)) := by
  have h : ∀ e ∈ args, Carried t S R e := fun e he => hsub e (hargs e he)
  unfold iteratorCall
  cases hp : t.patterns.get? name with
  | none => exact both_unknownCall hR name h
  | some p =>
    rcases args with _ | ⟨source, _ | ⟨expression, rest⟩⟩
    · exact both_malformedCall hR name _ h
    · exact both_malformedCall hR name _ h
    · have hshows : source.shows isFiltered = true ∧
          (iterated source).1.shows Expr.isTable = true := by
        simpa [clearIterator, hp] using hclear
      obtain ⟨htable, hcondition⟩ := hP.iterated (hargs source (by simp))
      have hexpression : Carried t S R expression := h expression (by simp)
      have hrest : ∀ e ∈ rest, Carried t S R e := fun e he => h e (by simp [he])
      simp only [map_cons, iterated_inlined hshows.1, Option.isSome_map]
      split
      case' isTrue => refine (both_usePatternNamed t _).bind_eq fun _ => ?_
      all_goals
        refine (both_tableArgument hR (hsub _ htable) hshows.2).bind ?_
        rintro ⟨sql, row⟩ ⟨sql', _⟩ ⟨hsql, rfl⟩
        refine ((both_guarded hR hexpression fun c hc => hsub c (hcondition c hc)).withRow row).bind
          fun value value' hvalue => ?_
        exact (both_renderAll hrest).bind fun texts texts' htexts =>
          both_applyPattern hR p (.cons hsql (.cons hvalue htexts)) fun _ => rfl

/-! ## Conditionals on values -/

theorem both_switchCases (hR : Congruence R) {args : List Expr}
    (h : ∀ e ∈ args, Carried t S R e) :
    Both S (Forall₂ R) (switchCases (renderExpr t) args)
      (switchCases (renderExpr t) (args.map Expr.inlined)) := by
  fun_induction switchCases (renderExpr t) args with
  | case1 => exact .pure .nil
  | case2 last =>
    exact Both.bind (h last (by simp)) fun _ _ ha =>
      .pure (.cons (hR.append (hR.refl _) ha) .nil)
  | case3 value result rest ih =>
    refine Both.bind (h value (by simp)) fun _ _ hvalue => ?_
    refine Both.bind (h result (by simp)) fun _ _ hresult => ?_
    refine (ih fun e he => h e (by simp [he])).bind fun _ _ hcases => .pure (.cons ?_ hcases)
    exact hR.append (hR.around _ hvalue _) hresult

theorem both_switchCall (hR : Congruence R) (name : String) {args : List Expr}
    (h : ∀ e ∈ args, Carried t S R e) (hclear : clearSwitch args = true) :
    Both S R (switchCall t (renderExpr t) name args)
      (switchCall t (renderExpr t) name (args.map Expr.inlined)) := by
  rcases args with _ | ⟨subject, _ | ⟨first, _ | ⟨second, rest⟩⟩⟩
  · exact both_malformedCall hR name _ h
  · exact both_malformedCall hR name _ h
  · exact both_malformedCall hR name _ h
  · have hsubject : isTrue subject.inlined = isTrue subject := Expr.eq_of_shows hclear
    obtain ⟨hcarried, hcases⟩ := forall_mem_cons.mp h
    refine (both_switchCases hR hcases).bind fun cases cases' hcases => ?_
    have htext := hR.intercalate " " hcases
    dsimp only
    rw [hsubject]
    split
    · exact (both_usePatternNamed t _).bind_eq fun _ => .pure (hR.around _ htext _)
    · refine Both.bind hcarried fun value value' hvalue => ?_
      cases t.patterns.get? "SWITCH" with
      | some p =>
        exact (both_usePattern t p).bind_eq fun _ =>
          both_fillPattern hR p (.cons ⟨rfl, hvalue⟩ (.cons ⟨rfl, htext⟩ .nil))
      | none => exact .pure (hR.append (hR.append (hR.around _ hvalue _) htext) (hR.refl _))

/-! ## Projections -/

theorem projected_of_not_label (sub : Expr → Rendering String) {e : Expr} {rest : List Expr}
    (h : rest.isEmpty = true ∨ e.isText = false) :
    projected t sub (e :: rest) = (do
      let sql ← sub e
      let x ← projected t sub rest
      pure (sql :: x.1, x.2)) := by
  refine projected.eq_3 _ _ _ _ fun label value rest' he hrest => ?_
  subst he hrest
  rcases h with h | h <;> cases h

theorem both_projected (hR : Congruence R) {args : List Expr} (h : ∀ e ∈ args, Carried t S R e)
    (hclear : clearLabels args = true) :
    Both S (fun x x' => Forall₂ R x.1 x'.1 ∧ Forall₂ R x.2 x'.2)
      (projected t (renderExpr t) args) (projected t (renderExpr t) (args.map Expr.inlined)) := by
  fun_induction clearLabels args with
  | case1 label value rest ih =>
    refine Both.bind (h value (by simp)) fun a a' ha => ?_
    refine (ih (fun e he => h e (by simp [he])) hclear).bind fun x x' hx => .pure ?_
    exact ⟨hx.1, .cons (hR.append (hR.append ha (hR.refl _)) (hR.refl _)) hx.2⟩
  | case2 e rest hne ih =>
    rw [Bool.and_eq_true, Bool.or_eq_true] at hclear
    have hleft : rest.isEmpty = true ∨ e.isText = false := by
      cases hrest : rest.isEmpty with
      | true => exact .inl rfl
      | false =>
        right
        obtain ⟨value, rest', rfl⟩ := exists_cons_of_ne_nil (l := rest) (by rintro rfl; cases hrest)
        unfold Expr.isText
        split
        · next label => exact (hne label value rest' rfl rfl).elim
        · rfl
    have hright : (rest.map Expr.inlined).isEmpty = true ∨ e.inlined.isText = false := by
      rcases hleft with hempty | htext
      · exact .inl (by simpa using hempty)
      · rcases hclear.1 with hempty | hshows
        · exact .inl (by simpa using hempty)
        · exact .inr ((Expr.eq_of_shows hshows).trans htext)
    rw [map_cons, projected_of_not_label _ hleft, projected_of_not_label _ hright]
    refine Both.bind (h e (by simp)) fun a a' ha => ?_
    exact (ih (fun e he => h e (by simp [he])) hclear.2).bind fun x x' hx =>
      .pure ⟨.cons ha hx.1, hx.2⟩
  | case3 => exact .pure ⟨.nil, .nil⟩

theorem isEmpty_eq_of_forall₂ {as as' : List String} (h : Forall₂ R as as') :
    as.isEmpty = as'.isEmpty := by
  cases h <;> rfl

theorem both_projectionCall (hR : Congruence R) (name : String) {args : List Expr}
    (h : ∀ e ∈ args, Carried t S R e) (hclear : clearProjection t name args = true) :
    Both S R (projectionCall t (renderExpr t) name args)
      (projectionCall t (renderExpr t) name (args.map Expr.inlined)) := by
  unfold projectionCall
  cases hp : t.patterns.get? name with
  | none => exact both_unknownCall hR name h
  | some p =>
    cases args with
    | nil => exact both_malformedCall hR name _ h
    | cons source rest =>
      have hshows : source.shows Expr.isTable = true ∧ clearLabels rest = true := by
        simpa [clearProjection, hp] using hclear
      obtain ⟨hsource, hrest⟩ := forall_mem_cons.mp h
      refine (both_tableArgument hR hsource hshows.1).bind ?_
      rintro ⟨sql, row⟩ ⟨sql', _⟩ ⟨hsql, rfl⟩
      refine ((both_projected hR hrest hshows.2).alongRow row).bind ?_
      rintro ⟨plain, named⟩ ⟨plain', named'⟩ ⟨hplain, hnamed⟩
      refine (both_usePattern t p).bind_eq fun _ => ?_
      have hcolumns := hR.intercalate ", " (rel_append hplain hnamed)
      have hall : ∀ front : String, R (front ++ sql ++ ")") (front ++ sql' ++ ")") :=
        fun front => hR.around front hsql _
      have hselect : ∀ front : String,
          R (front ++ ", ".intercalate (plain ++ named) ++ " FROM " ++ sql ++ ")")
            (front ++ ", ".intercalate (plain' ++ named') ++ " FROM " ++ sql' ++ ")") :=
        fun front => hR.append (hR.append (hR.around front hcolumns _) hsql) (hR.refl _)
      dsimp only at hplain hnamed ⊢
      rw [isEmpty_eq_of_forall₂ hplain, isEmpty_eq_of_forall₂ hnamed]
      refine .ite ?_ ?_
      · refine .ite (.pure (hall _)) (.ite (.pure (hselect _)) (.ite (.pure (hselect _)) ?_))
        exact both_fillPattern hR p (.cons ⟨rfl, hsql⟩ (.cons ⟨rfl, hR.intercalate _ hplain⟩
          (.cons ⟨rfl, hR.intercalate _ hnamed⟩ .nil)))
      · refine .ite (.pure (hall _)) ?_
        exact both_fillPattern hR p (.cons ⟨rfl, hsql⟩ (.cons ⟨rfl, hcolumns⟩ .nil))

end Rules

end MeasureSql.Rendering
