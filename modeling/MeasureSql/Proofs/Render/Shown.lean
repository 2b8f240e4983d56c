import MeasureSql.Proofs.Render.Predicates

/-!
# What the arguments of a call show

In a rendering without warnings every condition on rows that is to be seen of an expression occurs
in its SQL.  A rendering is judged from its end: a state without warnings has come from states
without warnings, so no part of the expression was guessed, left over or left out.

## Main definitions

* `Clean` — the states without warnings among the rows of some tables.
* `Rendered` — a condition has been rendered, and its text occurs in the SQL.

## Main results

* `ensures_applyPattern` — an argument that a template shows occurs in the SQL of the call.
* `ensures_genericCall`, `ensures_iteratorCall`, `ensures_switchCall`, `ensures_projectionCall` —
  the rules that render their arguments in place.
-/

namespace MeasureSql

open Dax Text

namespace Rendering

/-! ## Rendering without warnings -/

variable {α β : Type} {t : Target} {rows : List String}

/-- Nothing has been warned of among the rows of some tables. -/
def Clean (rows : List String) (s : RenderState) : Prop :=
  s.warnings = [] ∧ s.rowTables = rows

/-- The condition has been rendered among its rows without a warning, and the text occurs in the
SQL. -/
def Rendered (t : Target) (x : RowPredicate) (sql : String) : Prop :=
  ∃ s text s', Clean x.1 s ∧ renderExpr t x.2 s = (.ok text, s') ∧ Clean x.1 s' ∧ Within text sql

/-- Each of the conditions is seen in the SQL. -/
def AllRendered (t : Target) (xs : List RowPredicate) (sql : String) : Prop :=
  ∀ x ∈ xs, Rendered t x sql

theorem Rendered.within {x : RowPredicate} {text sql : String} (h : Rendered t x text)
    (hw : Within text sql) : Rendered t x sql := by
  obtain ⟨s, p, s', hs, hrun, hs', hp⟩ := h
  exact ⟨s, p, s', hs, hrun, hs', hp.trans hw⟩

namespace AllRendered

variable {xs ys : List RowPredicate} {text sql : String}

theorem within (h : AllRendered t xs text) (hw : Within text sql) : AllRendered t xs sql :=
  fun x hx => (h x hx).within hw

theorem append (hxs : AllRendered t xs sql) (hys : AllRendered t ys sql) :
    AllRendered t (xs ++ ys) sql := by
  intro x hx
  rcases List.mem_append.mp hx with hx | hx
  · exact hxs x hx
  · exact hys x hx

theorem nil : AllRendered t [] sql := by
  simp [AllRendered]

end AllRendered

/-- What is clean around the rows of a table is clean among them. -/
theorem clean_of_withRow {name : String} {act : Rendering α} (hled : Led true act)
    {s s' : RenderState} {a : α} (hrun : withRow (some name) act s = (.ok a, s'))
    (hclean : Clean rows s') :
    ∃ s₁, act { s with rowTables := s.rowTables ++ [name] } = (.ok a, s₁) ∧
      s' = { s₁ with rowTables := s.rowTables } ∧ Clean (rows ++ [name]) s₁ := by
  rcases hact : act { s with rowTables := s.rowTables ++ [name] } with ⟨r, s₁⟩
  rw [run_withRow, hact] at hrun
  cases hrun
  have hinside : s₁.rowTables = s.rowTables ++ [name] := (hled.of_ok hact).rowTables_eq
  have hleft : s₁.rowTables.dropLast = s.rowTables := by rw [hinside, List.dropLast_concat]
  have hrows : s.rowTables = rows := hleft.symm.trans hclean.2
  exact ⟨s₁, rfl, by rw [hleft], hclean.1, by rw [hinside, hrows]⟩

namespace Ensures

/-- What leads to a clean state began in one. -/
theorem of_led {free : Bool} {m : Rendering α} (h : Led free m) :
    Ensures (Clean rows) m fun _ => True := by
  intro s a s' hrun hclean
  have hled := h.of_ok hrun
  exact ⟨⟨hled.warnings_eq_nil hclean.1, hled.rowTables_eq.symm.trans hclean.2⟩, trivial⟩

/-- What comes after moves is as it should be. -/
theorem after {m : Rendering α} {f : α → Rendering β} {post : β → Prop} (hm : Led false m)
    (hf : ∀ a, Ensures (Clean rows) (f a) post) :
    Ensures (Clean rows) (m >>= f) post :=
  bind (of_led hm) fun a => (hf a).imp fun _ h _ => h

/-- What is as it should be stays so after moves, if it is passed on. -/
theorem keep {m : Rendering α} {f : α → β} {mid : α → Prop} {post : β → Prop}
    (hm : Ensures (Clean rows) m mid) (hf : ∀ a, mid a → post (f a)) :
    Ensures (Clean rows) (m >>= fun a => Pure.pure (f a)) post :=
  bind hm fun a => .pure (hf a)

/-- Inside the rows of a table the rows are as they should be. -/
theorem withRow (row : Option String) {act : Rendering α} {post : α → Prop} (hled : Led true act)
    (h : Ensures (Clean (rows ++ row.toList)) act post) :
    Ensures (Clean rows) (Rendering.withRow row act) post := by
  cases row with
  | none => rwa [withRow_none, ← List.append_nil rows]
  | some name =>
    intro s a s' hrun hclean
    obtain ⟨s₁, hact, rfl, hclean₁⟩ := clean_of_withRow hled hrun hclean
    obtain ⟨⟨hwarn, -⟩, hpost⟩ := h _ a s₁ hact hclean₁
    exact ⟨⟨hwarn, hclean.2⟩, hpost⟩

theorem alongRow (row : Option String) {act : Rendering α} {post : α → Prop} (hled : Led true act)
    (h : Ensures (Clean (rows ++ row.toList)) act post) :
    Ensures (Clean rows) (Rendering.alongRow row act) post :=
  (withRow row hled h).endsLike (alongRow_endsLike row act)

end Ensures

/-- No warning has been given after one. -/
theorem ensures_note {post : Unit → Prop} (level : Confidence) (warning : String) :
    Ensures (Clean rows) (note level warning) post := by
  intro s a s' hrun hclean
  cases hrun
  exact absurd hclean.1 (Leads.addNew_ne_nil _ _)

/-- What begins with a warning is as anything should be. -/
theorem ensures_note_bind {post : α → Prop} (level : Confidence) (warning : String)
    {f : Unit → Rendering α} (hf : ∀ a, Led false (f a)) :
    Ensures (Clean rows) (note level warning >>= f) post := by
  have hnote : Ensures (Clean rows) (note level warning) fun _ => False := ensures_note _ _
  exact Ensures.bind hnote fun a => (Ensures.of_led (hf a)).imp fun _ _ h => h.elim

/-- The text of an expression that was rendered is seen in itself. -/
theorem ensures_self (rows : List String) (e : Expr) :
    Ensures (Clean rows) (renderExpr t e) (Rendered t (rows, e)) := by
  intro s sql s' hrun hclean
  obtain ⟨hs, -⟩ := Ensures.of_led (led_renderExpr t e) s sql s' hrun hclean
  exact ⟨hs, s, sql, s', hs, hrun, hclean, Within.refl sql⟩

/-- A computation that always gives the same value gives it. -/
theorem ensures_of_gives {m : Rendering α} {a : α} (hled : Led true m)
    (h : Gives rows m a) : Ensures (Clean rows) m fun b => b = a := by
  intro s b s' hrun hclean
  obtain ⟨hs, -⟩ := Ensures.of_led hled s b s' hrun hclean
  obtain ⟨s'', hgives, -⟩ := h s hs.2
  rw [hrun] at hgives
  cases hgives
  exact ⟨hs, rfl⟩

/-! ## Patterns -/

theorem ensures_fillPattern (p : Pattern) (b : Bindings) :
    Ensures (Clean rows) (fillPattern t p b) fun sql => p.render t.dialect b = .ok sql := by
  rw [fillPattern]
  split
  · next sql hsql => exact .pure hsql
  · intro s a s' hrun hclean
    cases hrun

/-- What arguments are bound to is still there when the pattern is filled. -/
theorem ensures_applyPattern_of {p : Pattern} {args : List String} {table : Option String}
    {post : String → Prop} (h : ∀ b : Bindings,
      (∀ name value, (p.bind args).bindings.lookup name = some value →
        b.lookup name = some value) →
      ∀ sql, p.render t.dialect b = .ok sql → post sql) :
    Ensures (Clean rows) (applyPattern t p args table) post := by
  have hfill : ∀ b : Bindings,
      (∀ name value, (p.bind args).bindings.lookup name = some value →
        b.lookup name = some value) →
      Ensures (Clean rows) (do usePattern t p; fillPattern t p b) post := fun b hb =>
    Ensures.after (led_usePattern t p) fun _ => (ensures_fillPattern p b).imp (h b hb)
  have hinsert : (p.bind args).bindings.contains "table" = false → ∀ v : String,
      Ensures (Clean rows) (do
        usePattern t p
        fillPattern t p ((p.bind args).bindings.insert "table" v)) post := by
    intro hfree v
    refine hfill _ fun name value hvalue => ?_
    have hne : name ≠ "table" := by
      rintro rfl
      rw [Bindings.contains_eq_isSome_lookup, hvalue] at hfree
      cases hfree
    rw [Bindings.lookup_insert_of_ne _ _ hne]
    exact hvalue
  rw [applyPattern]
  refine Ensures.after (led_noteMissing _ _) fun _ => ?_
  refine .ite (Ensures.after (led_note (by decide) _) fun _ => ?_) ?_
  all_goals
    dsimp only
    split
    · next htable =>
      simp only [Bool.and_eq_true, Bool.not_eq_true'] at htable
      split
      · exact hinsert htable.1 _
      · exact Ensures.after (led_note (by decide) _) fun _ => hinsert htable.1 _
    · exact hfill _ fun _ _ hvalue => hvalue

/-- **An argument that the template shows occurs in the SQL of the call.** -/
theorem ensures_applyPattern {p : Pattern} (hp : p ∈ Catalog.builtin) (args : List String)
    (table : Option String) :
    Ensures (Clean rows) (applyPattern t p args table) fun sql =>
      ∀ i arg, args[i]? = some arg → p.shows i = true → Within arg sql := by
  refine ensures_applyPattern_of fun b hb sql hrender i arg harg hshows => ?_
  obtain ⟨name, hname, hhole⟩ := (Option.any_eq_true _ _).mp hshows
  obtain ⟨value, hvalue, hwithin⟩ := p.within_bind ((Catalog.showsParts_of_mem hp).nodup) harg hname
  have hmem : name ∈ Template.holes p.template := by simpa using hhole
  exact hwithin.trans (p.within_render t.dialect hrender hmem (hb name value hvalue))

/-! ## Rules -/

section Rules

variable {n : Nat}

/-- What has at most some levels shows what is to be seen of it, among the rows of any tables. -/
def ShowsBelow (t : Target) (levels : Nat) : Prop :=
  ∀ e : Expr, e.height ≤ levels → ∀ rows, Ensures (Clean rows) (renderExpr t e)
    (AllRendered t (shown t rows e))

/-- An expression that is rendered is seen itself, with what is to be seen of it. -/
theorem ensures_condition (hsub : ShowsBelow t n) {e : Expr} (h : e.height ≤ n)
    (rows : List String) :
    Ensures (Clean rows) (renderExpr t e) (AllRendered t ((rows, e) :: shown t rows e)) := by
  intro s sql s' hrun hclean
  obtain ⟨hs, hsql⟩ := hsub e h rows s sql s' hrun hclean
  refine ⟨hs, fun x hx => ?_⟩
  rcases List.mem_cons.mp hx with rfl | hx
  · exact (ensures_self rows e s sql s' hrun hclean).2
  · exact hsql x hx

/-- Each expression shows what is to be seen of it in the text in its place. -/
def ShowEach (t : Target) (rows : List String) (es : List Expr) (sqls : List String) : Prop :=
  ∀ (i : Nat) (e : Expr), es[i]? = some e →
    ∃ sql, sqls[i]? = some sql ∧ AllRendered t (shown t rows e) sql

theorem ShowEach.cons {e : Expr} {es : List Expr} {sql : String} {sqls : List String}
    (h : AllRendered t (shown t rows e) sql) (hes : ShowEach t rows es sqls) :
    ShowEach t rows (e :: es) (sql :: sqls) := by
  intro i e' he'
  cases i with
  | zero =>
    cases he'
    exact ⟨sql, rfl, h⟩
  | succ i => simpa using hes i e' (by simpa using he')

theorem ensures_renderAll (hsub : ShowsBelow t n) {es : List Expr}
    (h : Expr.heightAll es ≤ n) :
    Ensures (Clean rows) (renderAll (renderExpr t) es) (ShowEach t rows es) := by
  induction es with
  | nil => exact .pure fun i e he => by simp at he
  | cons e es ih =>
    simp only [Expr.heightAll] at h
    refine (hsub e (by omega) rows).bind fun sql => (ih (by omega)).keep fun sqls hsqls hsql => ?_
    exact ShowEach.cons hsql hsqls

theorem ensures_tableArgument (hsub : ShowsBelow t n) {e : Expr} (h : e.height ≤ n) :
    Ensures (Clean rows) (tableArgument t (renderExpr t) e) fun a =>
      a.2.toList = rowsOf t e ∧ AllRendered t (shown t rows e) a.1 := by
  cases e with
  | table name =>
    have htable : Ensures (Clean rows) (resolveTable t name) fun table => table = tableAt t name :=
      ensures_of_gives (led_resolveTable t name) (gives_resolveTable name)
    refine htable.keep fun table heq => ⟨?_, ?_⟩
    · simp [rowsOf, heq]
    · simp [shown, AllRendered.nil]
  | _ =>
    refine (hsub _ h rows).keep fun sql hsql => ⟨?_, hsql⟩
    simp [rowsOf]

theorem ensures_unknownCall {post : String → Prop} (name : String) (args : List Expr) :
    Ensures (Clean rows) (unknownCall t (renderExpr t) name args) post :=
  ensures_note_bind _ _ fun _ => led_plainCall (led_renderExpr t) name args

theorem ensures_malformedCall {post : String → Prop} (name : String) (args : List Expr)
    (usage : String) :
    Ensures (Clean rows) (malformedCall t (renderExpr t) name args usage) post :=
  ensures_note_bind _ _ fun _ => led_plainCall (led_renderExpr t) name args

/-- A column is rendered by its name. -/
theorem ensures_column (rows : List String) (ref : ColumnRef) :
    Ensures (Clean rows) (resolveColumn t ref) fun column =>
      Rendered t (rows, .column ref) column.sql := by
  intro s column s' hrun hclean
  have hexpr : renderExpr t (.column ref) s = (.ok column.sql, s') := by
    rw [renderExpr_eq, renderWith, run_bind, hrun]
    rfl
  exact ensures_self rows _ s _ s' hexpr hclean

/-- **The arguments of most functions** show what is to be seen of them, and what is not put in the
place of a table is itself seen. -/
theorem ensures_genericArgs (hsub : ShowsBelow t n) {args : List Expr} (params : List String)
    (table : Option String) (h : Expr.heightAll args ≤ n) :
    Ensures (Clean rows) (genericArgs t (renderExpr t) params table args) fun a =>
      ShowEach t rows args a.1 ∧
        ∀ (i : Nat) (e : Expr), args[i]? = some e → params[i]? ≠ some "table" →
          ∃ sql, a.1[i]? = some sql ∧ Rendered t (rows, e) sql := by
  induction args generalizing params table with
  | nil =>
    refine .pure ⟨fun i e he => ?_, fun i e he => ?_⟩
    · simp at he
    · simp at he
  | cons arg args ih =>
    simp only [Expr.heightAll] at h
    have hrest : ∀ (sql : String) (table : Option String),
        Ensures (Clean rows) (genericArgs t (renderExpr t) params.tail table args >>= fun rest =>
          Pure.pure (sql :: rest.1, rest.2)) fun a =>
            (AllRendered t (shown t rows arg) sql → ShowEach t rows (arg :: args) a.1) ∧
            ((params.head? ≠ some "table" → Rendered t (rows, arg) sql) →
              ∀ (i : Nat) (e : Expr), (arg :: args)[i]? = some e → params[i]? ≠ some "table" →
                ∃ sql, a.1[i]? = some sql ∧ Rendered t (rows, e) sql) := by
      intro sql table
      refine (ih params.tail table (by omega)).keep fun rest hrest => ⟨fun hsql => ?_, ?_⟩
      · exact ShowEach.cons hsql hrest.1
      · intro hsql i e he hparam
        cases i with
        | zero =>
          cases he
          rw [← List.head?_eq_getElem?] at hparam
          exact ⟨sql, rfl, hsql hparam⟩
        | succ i => simpa using hrest.2 i e (by simpa using he) (by simpa using hparam)
    unfold genericArgs
    dsimp only
    split
    · next ref =>
      refine (ensures_column rows ref).bind fun column => (hrest _ _).imp fun a ha hcolumn => ?_
      refine ⟨ha.1 (by simp [shown, AllRendered.nil]), ha.2 fun hparam => ?_⟩
      cases column.table with
      | none => exact hcolumn
      | some owner =>
        have hplain : (params.head? == some "table") = false := by simpa using hparam
        simpa only [hplain, Bool.false_eq_true, if_false] using hcolumn
    · refine (ensures_condition hsub (by omega) rows).bind fun sql =>
        (hrest sql table).imp fun a ha hsql => ?_
      exact ⟨ha.1 fun x hx => hsql x (List.mem_cons_of_mem _ hx),
        ha.2 fun _ => hsql _ List.mem_cons_self⟩

/-- What is seen of the arguments that a template shows is seen in one of them. -/
theorem exists_of_mem_shownArgs {x : RowPredicate} {es : List Expr} {seen : Nat → Bool}
    (h : x ∈ shownArgs t rows seen es) :
    ∃ i e, es[i]? = some e ∧ seen i = true ∧ x ∈ shown t rows e := by
  induction es generalizing seen with
  | nil => simp [shownArgs] at h
  | cons e es ih =>
    rw [shownArgs] at h
    rcases List.mem_append.mp h with h | h
    · split at h
      · next hseen => exact ⟨0, e, rfl, hseen, h⟩
      · cases h
    · obtain ⟨i, e', he', hseen, hx⟩ := ih h
      exact ⟨i + 1, e', by simpa using he', hseen, hx⟩

/-- **The rule of most functions** shows a condition of its own, and what is to be seen in those
arguments that its template shows. -/
theorem ensures_genericCall (ht : t.patterns = .builtin) (hsub : ShowsBelow t n) (name : String)
    {args : List Expr} (h : Expr.heightAll args ≤ n) :
    Ensures (Clean rows) (genericCall t (renderExpr t) name args) (AllRendered t
      (((ownPredicate? name args).map (rows, ·)).toList ++
        shownArgs t rows (fun i => (t.patterns.get? name).any (·.shows i)) args)) := by
  rw [genericCall]
  split
  · exact ensures_unknownCall name args
  · next p hget =>
    have hbuiltin : PatternLibrary.builtin.get? name = some p := ht ▸ hget
    obtain ⟨hp, hpname⟩ := PatternLibrary.mem_builtin_of_get? hbuiltin
    refine (ensures_genericArgs hsub p.params none h).bind fun a =>
      (ensures_applyPattern hp a.1 a.2).imp fun sql hsql hargs => AllRendered.append ?_ ?_
    · intro x hx
      unfold ownPredicate? at hx
      split at hx
      · next table condition =>
        split at hx
        · next hfilter =>
          have hupper : Text.upper name = "FILTER" :=
            Text.upper_of_asciiUpper (by simpa [isFilter] using hfilter) rfl
          obtain ⟨hparams, hshows⟩ := (Catalog.showsParts_of_mem hp).filter (hpname.trans hupper)
          obtain ⟨text, htext, hrendered⟩ := hargs.2 1 condition rfl (by simp [hparams])
          have heq : x = (rows, condition) := by simpa using hx
          rw [heq]
          exact hrendered.within (hsql 1 text htext hshows)
        · simp at hx
      · simp at hx
    · intro x hx
      obtain ⟨i, e, he, hseen, hmem⟩ := exists_of_mem_shownArgs hx
      obtain ⟨text, htext, hrendered⟩ := hargs.1 i e he
      rw [hget] at hseen
      exact (hrendered x hmem).within (hsql i text htext (by simpa using hseen))

/-! ### Iterators -/

/-- A filtered table shows its condition; no other source of rows shows anything. -/
theorem shownSource_eq (t : Target) (rows : List String) (source : Expr) :
    shownSource t rows source = match (iterated source).2 with
      | some condition => shownGuard t rows [(iterated source).1, condition]
      | none => [] := by
  cases source with
  | call f args =>
    rcases args with _ | ⟨table, _ | ⟨condition, _ | ⟨third, rest⟩⟩⟩
    · simp [shownSource, shownGuard, iterated]
    · simp [shownSource, shownGuard, iterated]
    · by_cases hf : Text.asciiUpper f = "FILTER"
      · simp [shownSource, isFilter, iterated, hf]
      · simp [shownSource, isFilter, iterated, hf]
    · simp [shownSource, shownGuard, iterated]
  | _ => simp [shownSource, iterated]

/-- The value on each row shows what is to be seen of the expression and of the condition. -/
theorem ensures_guarded (hsub : ShowsBelow t n) {expression : Expr} (h : expression.height ≤ n)
    {condition : Option Expr} (hcondition : ∀ c, condition = some c → c.height ≤ n) :
    Ensures (Clean rows) (guarded (renderExpr t) expression condition) fun value =>
        AllRendered t (shown t rows expression) value ∧ ∀ c, condition = some c →
          AllRendered t ((rows, c) :: shown t rows c) value := by
  cases condition with
  | none => exact (hsub expression h rows).imp fun value hvalue => ⟨hvalue, by simp⟩
  | some c =>
    have hparts := (hsub expression h rows).inTurn (ensures_condition hsub (hcondition c rfl) rows)
    refine hparts.keep fun (value, guard) ⟨hvalue, hg⟩ => ⟨hvalue.within ?_, fun c' hc' => ?_⟩
    · exact within_append _ _ _
    · cases hc'
      refine hg.within ?_
      rw [String.append_assoc, String.append_assoc, String.append_assoc, ← String.append_assoc]
      exact within_append _ _ _

/-- **An iterator** shows the condition on its rows, and what is to be seen of its expression. -/
theorem ensures_iteratorCall (ht : t.patterns = .builtin) (hsub : ShowsBelow t n) {name : String}
    (hname : Text.asciiUpper name ∈ ["SUMX", "AVERAGEX", "COUNTX", "MINX", "MAXX"])
    {args : List Expr} (h : Expr.heightAll args ≤ n) :
    Ensures (Clean rows) (iteratorCall t (renderExpr t) name args) fun sql =>
      ∀ source rest, args = source :: rest → AllRendered t (shownSource t rows source ++
        shownHead t (rows ++ rowsOf t (iterated source).1) rest) sql := by
  obtain hunknown | hmalformed | ⟨p, source, expression, rest, hget, rfl⟩ :=
    iteratorCall_cases t (renderExpr t) name args
  · rw [hunknown]
    exact ensures_unknownCall name args
  · rw [hmalformed]
    exact ensures_malformedCall name args _
  · have hbuiltin : PatternLibrary.builtin.get? name = some p := ht ▸ hget
    obtain ⟨hp, hpname⟩ := PatternLibrary.mem_builtin_of_get? hbuiltin
    have hshows : p.shows 1 = true := by
      have hascii : ∀ word ∈ ["SUMX", "AVERAGEX", "COUNTX", "MINX", "MAXX"],
          word.toList.all Text.isAscii = true := by
        decide
      refine (Catalog.showsParts_of_mem hp).iterator ?_
      rw [hpname, Text.upper_of_asciiUpper rfl (hascii _ hname)]
      exact hname
    simp only [Expr.heightAll] at h
    have hsource : source.height ≤ n := by omega
    obtain ⟨htable, hcondition⟩ := height_iterated hsource
    have hrows : Ensures (Clean rows) (overRows t (renderExpr t) p source expression rest)
        fun sql => AllRendered t (shownSource t rows source ++
          shown t (rows ++ rowsOf t (iterated source).1) expression) sql := by
      refine (ensures_tableArgument hsub htable).bind fun a => ?_
      refine (Ensures.withRow a.2 (led_guarded (led_renderExpr t) expression _)
        (ensures_guarded hsub (by omega) hcondition)).bind fun value => ?_
      refine Ensures.after (led_renderAll (led_renderExpr t) rest) fun rest' => ?_
      refine (ensures_applyPattern hp _ a.2).imp fun sql hsql hvalue ha => ?_
      have hwithin := hsql 1 value rfl hshows
      rw [ha.1] at hvalue
      refine AllRendered.append ?_ (hvalue.1.within hwithin)
      rw [shownSource_eq]
      cases hc : (iterated source).2 with
      | none => exact AllRendered.nil
      | some c => exact (hvalue.2 c hc).within hwithin
    rw [iteratorCall_rows hget]
    refine Ensures.imp (.ite (Ensures.after (led_usePatternNamed t _) fun _ => hrows) hrows) ?_
    intro sql hsql source' rest' heq
    cases heq
    exact hsql

/-! ### Conditionals and projections -/

/-- What is to be seen of some expressions is seen in some texts. -/
def SeenIn (t : Target) (xs : List RowPredicate) (sqls : List String) : Prop :=
  ∀ x ∈ xs, ∃ sql ∈ sqls, Rendered t x sql

theorem SeenIn.join {xs : List RowPredicate} {sqls : List String} (h : SeenIn t xs sqls)
    (sep : String) : AllRendered t xs (sep.intercalate sqls) := by
  intro x hx
  obtain ⟨sql, hsql, hrendered⟩ := h x hx
  exact hrendered.within (within_intercalate sep hsql)

theorem SeenIn.cons {xs ys : List RowPredicate} {sql : String} {sqls : List String}
    (hxs : AllRendered t xs sql) (hys : SeenIn t ys sqls) : SeenIn t (xs ++ ys) (sql :: sqls) := by
  intro x hx
  rcases List.mem_append.mp hx with hx | hx
  · exact ⟨sql, List.mem_cons_self, hxs x hx⟩
  · obtain ⟨sql', hsql', hrendered⟩ := hys x hx
    exact ⟨sql', List.mem_cons_of_mem _ hsql', hrendered⟩

theorem ensures_switchCases (hsub : ShowsBelow t n) {args : List Expr}
    (h : Expr.heightAll args ≤ n) :
    Ensures (Clean rows) (switchCases (renderExpr t) args) (SeenIn t (shownAll t rows args)) := by
  fun_induction switchCases (renderExpr t) args with
  | case1 => exact .pure (by simp [SeenIn, shownAll])
  | case2 last =>
    simp only [Expr.heightAll] at h
    refine (hsub last (by omega) rows).keep fun sql hsql => ?_
    rw [shownAll]
    exact SeenIn.cons (hsql.within (within_append_right _ _)) (by simp [SeenIn, shownAll])
  | case3 value result rest ih =>
    simp only [Expr.heightAll] at h
    refine (hsub value (by omega) rows).bind fun v => (hsub result (by omega) rows).bind fun r => ?_
    refine (ih (by omega)).keep fun cases hcases hr hv => ?_
    rw [shownAll, shownAll, ← List.append_assoc]
    refine SeenIn.cons ?_ hcases
    refine AllRendered.append (hv.within ?_) (hr.within (within_append_right _ _))
    rw [String.append_assoc]
    exact within_append _ _ _

/-- **A conditional on values** shows what is to be seen of its arguments. -/
theorem ensures_switchCall (ht : t.patterns = .builtin) (hsub : ShowsBelow t n) (name : String)
    {args : List Expr} (h : Expr.heightAll args ≤ n) :
    Ensures (Clean rows) (switchCall t (renderExpr t) name args)
      (AllRendered t (shownAll t rows args)) := by
  unfold switchCall
  split
  · next subject first second rest =>
    have hpairs : Expr.heightAll (first :: second :: rest) ≤ n := by
      simp only [Expr.heightAll] at h ⊢
      omega
    rw [Expr.heightAll] at h
    rw [shownAll]
    refine (ensures_switchCases hsub hpairs).bind fun cases => ?_
    dsimp only
    split
    · next htrue =>
      refine Ensures.after (led_usePatternNamed t _) fun _ => .pure fun hcases => ?_
      have hsubject : shown t rows subject = [] := by
        unfold isTrue at htrue
        split at htrue
        · simp [shown]
        · cases htrue
      rw [hsubject]
      exact (hcases.join " ").within (within_append _ _ _)
    · refine (hsub subject (by omega) rows).bind fun value => ?_
      rw [ht]
      split
      · next p hget =>
        obtain ⟨hp, hpname⟩ := PatternLibrary.mem_builtin_of_get? hget
        have hword : Text.upper "SWITCH" = "SWITCH" := Text.upper_of_asciiUpper rfl rfl
        obtain ⟨hexpression, hcaseHole⟩ :=
          (Catalog.showsParts_of_mem hp).switch (hpname.trans hword)
        refine Ensures.after (led_usePattern t p) fun _ => ?_
        refine (ensures_fillPattern p _).imp fun sql hrender hvalue hcases => ?_
        have hfirst : Within value sql := p.within_render t.dialect hrender hexpression (by simp)
        have hrest : Within (" ".intercalate cases) sql :=
          p.within_render t.dialect hrender hcaseHole (by simp [List.lookup_cons])
        exact AllRendered.append (hvalue.within hfirst) ((hcases.join " ").within hrest)
      · have hfirst := within_append "CASE " value (" " ++ (" ".intercalate cases ++ " END"))
        have hrest := within_append ("CASE " ++ value ++ " ") (" ".intercalate cases) " END"
        refine .pure fun hvalue hcases => AllRendered.append (hvalue.within ?_) ?_
        · simpa only [String.append_assoc] using hfirst
        · exact (hcases.join " ").within hrest
  · exact ensures_malformedCall name args _

theorem ensures_projected (hsub : ShowsBelow t n) {args : List Expr}
    (h : Expr.heightAll args ≤ n) :
    Ensures (Clean rows) (projected t (renderExpr t) args) fun a =>
      SeenIn t (shownAll t rows args) (a.1 ++ a.2) := by
  fun_induction projected t (renderExpr t) args with
  | case1 => exact .pure (by simp [SeenIn, shownAll])
  | case2 label value rest ih =>
    simp only [Expr.heightAll] at h
    refine (hsub value (by omega) rows).bind fun sql => (ih (by omega)).keep fun a ha hsql => ?_
    simp only [shownAll, shown, List.nil_append]
    intro x hx
    rcases List.mem_append.mp hx with hx | hx
    · refine ⟨sql ++ " AS " ++ t.dialect.quoteIdentifier label, by simp, (hsql x hx).within ?_⟩
      rw [String.append_assoc]
      exact within_append_left _ _
    · obtain ⟨text, htext, hrendered⟩ := ha x hx
      refine ⟨text, ?_, hrendered⟩
      rcases List.mem_append.mp htext with hplain | hnamed
      · exact List.mem_append_left _ hplain
      · exact List.mem_append_right _ (List.mem_cons_of_mem _ hnamed)
  | case3 other rest hne ih =>
    simp only [Expr.heightAll] at h
    refine (hsub other (by omega) rows).bind fun sql => (ih (by omega)).keep fun a ha hsql => ?_
    rw [shownAll]
    exact SeenIn.cons hsql ha

/-- A projection that is filled shows the table and the columns. -/
theorem ensures_fillProjection {p : Pattern} (hp : p ∈ Catalog.builtin)
    (hname : p.name ∈ ["SUMMARIZE", "ADDCOLUMNS", "SELECTCOLUMNS"]) {xs ys : List RowPredicate}
    {table : String} {plain named : List String} {b : Bindings}
    (htable : b.lookup "table" = some table)
    (hcolumns : ∀ s ∈ plain ++ named, ∃ hole ∈ Catalog.columnHoles p.name, ∃ value,
      b.lookup hole = some value ∧ Within s value) :
    Ensures (Clean rows) (fillPattern t p b) fun sql =>
      AllRendered t xs table → SeenIn t ys (plain ++ named) → AllRendered t (xs ++ ys) sql := by
  have hholes := (Catalog.showsParts_of_mem hp).projection hname
  refine (ensures_fillPattern p b).imp fun sql hrender hxs hys => AllRendered.append ?_ ?_
  · exact hxs.within (p.within_render t.dialect hrender (hholes _ List.mem_cons_self) htable)
  · intro x hx
    obtain ⟨text, htext, hrendered⟩ := hys x hx
    obtain ⟨hole, hhole, value, hvalue, hwithin⟩ := hcolumns text htext
    have hfilled :=
      p.within_render t.dialect hrender (hholes _ (List.mem_cons_of_mem _ hhole)) hvalue
    exact hrendered.within (hwithin.trans hfilled)

/-- A projection without a pattern of its own shows the table and the columns. -/
theorem allRendered_selection {xs ys : List RowPredicate} {table : String} {columns : List String}
    (hxs : AllRendered t xs table) (hys : SeenIn t ys columns) (front : String) :
    AllRendered t (xs ++ ys) (front ++ ", ".intercalate columns ++ " FROM " ++ table ++ ")") := by
  refine AllRendered.append (hxs.within (within_append _ _ _)) ((hys.join ", ").within ?_)
  rw [String.append_assoc, String.append_assoc, String.append_assoc, ← String.append_assoc]
  exact within_append _ _ _

/-- A projection without columns shows the table. -/
theorem allRendered_all {xs ys : List RowPredicate} {table : String} (hxs : AllRendered t xs table)
    (hys : SeenIn t ys []) (front : String) : AllRendered t (xs ++ ys) (front ++ table ++ ")") := by
  refine AllRendered.append (hxs.within (within_append _ _ _)) fun x hx => ?_
  obtain ⟨text, htext, -⟩ := hys x hx
  cases htext

/-- **A projection** shows what is to be seen of its table and of its columns. -/
theorem ensures_projectionCall (ht : t.patterns = .builtin) (hsub : ShowsBelow t n) {name : String}
    (hname : Text.asciiUpper name ∈ ["SUMMARIZE", "ADDCOLUMNS", "SELECTCOLUMNS"])
    {args : List Expr} (h : Expr.heightAll args ≤ n) :
    Ensures (Clean rows) (projectionCall t (renderExpr t) name args) fun sql =>
      ∀ source rest, args = source :: rest → AllRendered t (shown t rows source ++
        shownAll t (rows ++ rowsOf t source) rest) sql := by
  rw [projectionCall]
  split
  · exact ensures_unknownCall name args
  · next p hget =>
    have hbuiltin : PatternLibrary.builtin.get? name = some p := ht ▸ hget
    obtain ⟨hp, hpname⟩ := PatternLibrary.mem_builtin_of_get? hbuiltin
    have hpmem : p.name ∈ ["SUMMARIZE", "ADDCOLUMNS", "SELECTCOLUMNS"] := by
      have hascii : ∀ word ∈ ["SUMMARIZE", "ADDCOLUMNS", "SELECTCOLUMNS"],
          word.toList.all Text.isAscii = true := by
        decide
      rw [hpname, Text.upper_of_asciiUpper rfl (hascii _ hname)]
      exact hname
    split
    · exact ensures_malformedCall name _ _
    · next source rest =>
      simp only [Expr.heightAll] at h
      refine (ensures_tableArgument hsub (show source.height ≤ n by omega)).bind fun a => ?_
      refine (Ensures.alongRow a.2 (led_projected (led_renderExpr t) rest)
        (ensures_projected hsub (by omega))).bind fun columns => ?_
      refine Ensures.after (led_usePattern t p) fun _ => ?_
      obtain ⟨tableSql, row⟩ := a
      obtain ⟨plain, named⟩ := columns
      dsimp only
      refine Ensures.imp (?_ : Ensures (Clean rows) _ fun sql =>
        AllRendered t (shown t rows source) tableSql →
          SeenIn t (shownAll t (rows ++ row.toList) rest) (plain ++ named) →
            AllRendered t (shown t rows source ++ shownAll t (rows ++ row.toList) rest) sql) ?_
      · split
        · next hgroup =>
          have hholes : Catalog.columnHoles p.name = ["group_by", "aggregations"] := by
            simp [Catalog.columnHoles, hgroup]
          split
          · next hempty =>
            simp only [Bool.and_eq_true, List.isEmpty_iff] at hempty
            obtain ⟨rfl, rfl⟩ := hempty
            exact .pure fun hxs hys => allRendered_all hxs hys _
          · refine .ite (.pure fun hxs hys => allRendered_selection hxs hys _)
              (.ite (.pure fun hxs hys => allRendered_selection hxs hys _) ?_)
            refine ensures_fillProjection hp hpmem (by simp) fun s hs => ?_
            rw [hholes]
            rcases List.mem_append.mp hs with hs | hs
            · exact ⟨"group_by", by simp, _, by simp [List.lookup_cons], within_intercalate ", " hs⟩
            · exact ⟨"aggregations", by simp, _, by simp [List.lookup_cons],
                within_intercalate ", " hs⟩
        · next hother =>
          have hholes : Catalog.columnHoles p.name = ["columns"] := by
            simp [Catalog.columnHoles, hother]
          split
          · next hempty =>
            simp only [Bool.and_eq_true, List.isEmpty_iff] at hempty
            obtain ⟨rfl, rfl⟩ := hempty
            exact .pure fun hxs hys => allRendered_all hxs hys _
          · refine ensures_fillProjection hp hpmem (by simp) fun s hs => ?_
            rw [hholes]
            exact ⟨"columns", by simp, _, by simp [List.lookup_cons], within_intercalate ", " hs⟩
      · intro sql hsql hcolumns htable source' rest' heq
        cases heq
        rw [← htable.1]
        exact hsql htable.2 hcolumns

end Rules

end Rendering

end MeasureSql
