import MeasureSql.Proofs.Pattern.Catalog
import MeasureSql.Proofs.Render.Disguise
import MeasureSql.Proofs.Render.Levels
import MeasureSql.Proofs.Render.Outcome

/-!
# How the rules of calls end

Every rule of rendering fills every hole of the pattern it puts its arguments into, with one
exception: the pattern of the grouping, when it is reached by a name in disguise and so without its
rule, keeps a hole open.  Each rule is shown to settle on the disguised names that it comes to, when
the rendering of its arguments does.

## Main definitions

* `Stops` — rendering stops exactly at the disguised names, up to some level.

## Main results

* `settles_applyPattern`, `stops_applyPattern` — the patterns that take arguments one by one, and
  the one that does not.
* `settles_renderCall` — the outcome of a call, by the rule that its name selects.
-/

namespace MeasureSql

open Dax

namespace Rendering

/-- The error of a grouping without its rule. -/
def openHole : TemplateError := .unbound "SUMMARIZE" "aggregations"

/-! ## Patterns -/

section Patterns

variable {t : Target} {P : Prop} {err : TemplateError}

/-- The outcome of putting arguments into a pattern is that of filling its holes: what is bound to
the table is the only thing that may have been added. -/
theorem settles_applyPattern_of {p : Pattern} {args : List String} {table : Option String}
    (h : ∀ b : Bindings,
      (∀ name, name ≠ "table" → b.lookup name = (p.bind args).bindings.lookup name) →
      ("table" ∈ Template.holes p.template → (b.lookup "table").isSome = true) →
      Settles P err (fillPattern t p b)) :
    Settles P err (applyPattern t p args table) := by
  have hfill : ∀ b : Bindings,
      (∀ name, name ≠ "table" → b.lookup name = (p.bind args).bindings.lookup name) →
      ("table" ∈ Template.holes p.template → (b.lookup "table").isSome = true) →
      Settles P err (do usePattern t p; fillPattern t p b) := fun b hother htable =>
    Settles.bind_right (settles_usePattern t p) fun _ => h b hother htable
  have hinsert : ∀ value : String, Settles P err (do
      usePattern t p
      fillPattern t p ((p.bind args).bindings.insert "table" value)) := fun value =>
    hfill _ (fun name hne => Bindings.lookup_insert_of_ne _ _ hne) fun _ => by simp
  rw [applyPattern]
  refine Settles.bind_right (settles_noteMissing _ _) fun _ => ?_
  refine .ite (Settles.bind_right (settles_note _ _) fun _ => ?_) ?_
  all_goals
    dsimp only
    split
    · split
      · exact hinsert _
      · exact Settles.bind_right (settles_note _ _) fun _ => hinsert _
    · next hbound =>
      refine hfill _ (fun _ _ => rfl) fun hmem => ?_
      rw [← Bindings.contains_eq_isSome_lookup]
      simpa [hmem] using hbound

/-- A pattern of the catalog that is neither a subquery nor the grouping takes any arguments. -/
theorem settles_applyPattern {p : Pattern} (hp : p ∈ Catalog.builtin)
    (hsub : p.name ∉ Catalog.subqueries) (hgroup : p.name ≠ "SUMMARIZE") (args : List String)
    (table : Option String) : Settles False err (applyPattern t p args table) := by
  refine settles_applyPattern_of fun b hother htable => ?_
  refine settles_fillPattern t (p.render_eq_ok t.dialect fun hole hhole => ?_)
  by_cases hne : hole = "table"
  · exact .inl (hne ▸ htable (hne ▸ hhole))
  · rcases Catalog.isFilled_of_mem hp hsub hgroup hhole with hparam | hdefault | heq
    · rw [hother hole hne]
      exact p.isSome_lookup_bind args hparam
    · exact .inr hdefault
    · exact absurd heq hne

/-- The pattern of the grouping takes no arguments one by one. -/
theorem stops_applyPattern {p : Pattern} (hp : p ∈ Catalog.builtin) (hgroup : p.name = "SUMMARIZE")
    (args : List String) (table : Option String) :
    Settles True openHole (applyPattern t p args table) := by
  obtain ⟨hholes, hparams, hdefaults⟩ := Catalog.grouping_of_mem hp hgroup
  refine settles_applyPattern_of fun b hother _ => stops_fillPattern t ?_
  rw [openHole, ← hgroup]
  refine p.render_eq_error t.dialect ["group_by"] ["table"] hholes ?_ ?_ ?_
  · intro name hname
    rw [List.mem_singleton.mp hname, hother _ (by decide)]
    exact p.isSome_lookup_bind args (by simp [hparams])
  · rw [hother _ (by decide)]
    exact p.lookup_bind_eq_none args (by simp [hparams])
  · rw [hdefaults]
    rfl

end Patterns

/-! ## Rules -/

section Rules

/-- Rendering what has at most some levels stops exactly at a disguised name. -/
def Stops (sub : Expr → Rendering String) (levels : Nat) : Prop :=
  ∀ e : Expr, e.height ≤ levels → Settles (HasDisguised e.visited) openHole (sub e)

variable {t : Target} {sub : Expr → Rendering String} {n : Nat}

theorem settles_renderAll (hsub : Stops sub n) {es : List Expr} (h : Expr.heightAll es ≤ n) :
    Settles (HasDisguised (Expr.visitedAll es)) openHole (renderAll sub es) := by
  induction es with
  | nil => exact (Settles.pure []).congr (by simp [Expr.visitedAll])
  | cons e es ih =>
    simp only [Expr.heightAll] at h
    rw [Expr.visitedAll]
    refine Settles.congr (Settles.bind (hsub e (by omega)) fun _ => ?_)
      (hasDisguised_append _ _).symm
    exact Settles.bind_left (ih (by omega)) fun _ => .pure _

theorem settles_tableArgument (hsub : Stops sub n) {e : Expr} (h : e.height ≤ n) :
    Settles (HasDisguised e.visited) openHole (tableArgument t sub e) := by
  unfold tableArgument
  split
  · refine Settles.congr (Settles.bind_right (settles_resolveTable t _) fun _ => .pure _) ?_
    simp [Expr.visited]
  · exact Settles.bind_left (hsub e h) fun _ => .pure _

theorem settles_plainCall (hsub : Stops sub n) (name : String) {args : List Expr}
    (h : Expr.heightAll args ≤ n) :
    Settles (HasDisguised (Expr.visitedAll args)) openHole (plainCall t sub name args) :=
  Settles.bind_left (settles_renderAll hsub h) fun _ => .pure _

theorem settles_unknownCall (hsub : Stops sub n) (name : String) {args : List Expr}
    (h : Expr.heightAll args ≤ n) :
    Settles (HasDisguised (Expr.visitedAll args)) openHole (unknownCall t sub name args) :=
  Settles.bind_right (settles_note _ _) fun _ => settles_plainCall hsub name h

theorem settles_malformedCall (hsub : Stops sub n) (name : String) {args : List Expr}
    (usage : String) (h : Expr.heightAll args ≤ n) :
    Settles (HasDisguised (Expr.visitedAll args)) openHole (malformedCall t sub name args usage) :=
  Settles.bind_right (settles_note _ _) fun _ => settles_plainCall hsub name h

theorem settles_genericArgs (hsub : Stops sub n) {args : List Expr} (params : List String)
    (table : Option String) (h : Expr.heightAll args ≤ n) :
    Settles (HasDisguised (Expr.visitedAll args)) openHole
      (genericArgs t sub params table args) := by
  induction args generalizing params table with
  | nil => exact (Settles.pure _).congr (by simp [Expr.visitedAll])
  | cons arg args ih =>
    simp only [Expr.heightAll] at h
    have hrest : ∀ (sql : String) (table : Option String),
        Settles (HasDisguised (Expr.visitedAll args)) openHole
          (genericArgs t sub params.tail table args >>= fun rest =>
            Pure.pure (sql :: rest.1, rest.2)) := fun sql table =>
      Settles.bind_left (ih params.tail table (by omega)) fun _ => .pure _
    unfold genericArgs
    rw [Expr.visitedAll]
    dsimp only
    split
    · refine Settles.congr (Settles.bind_right (settles_resolveColumn t _) fun _ => hrest _ _) ?_
      simp [Expr.visited]
    · exact Settles.congr (Settles.bind (hsub arg (by omega)) fun _ => hrest _ _)
        (hasDisguised_append _ _).symm

/-- The subqueries are found by their ASCII capital form alone. -/
theorem asciiUpper_mem_subqueries {name : String} (h : Text.upper name ∈ Catalog.subqueries) :
    Text.asciiUpper name ∈ Catalog.subqueries := by
  have hletters : ∀ word ∈ Catalog.subqueries, word.toList.all
      (fun c => Text.isAscii c && !Text.foreignCapitals.contains c) = true := by
    decide +kernel
  rwa [Text.asciiUpper_of_upper rfl (hletters _ h)]

/-- A disguised name has a pattern. -/
theorem exists_get?_of_isDisguised {name : String} (h : IsDisguised name) :
    ∃ p, PatternLibrary.builtin.get? name = some p := by
  have hcatalog : ∃ p ∈ Catalog.builtin, "SUMMARIZE" = p.name := by
    decide
  obtain ⟨p, hp, hname⟩ := hcatalog
  exact PatternLibrary.exists_get?_builtin hp (h.1.trans hname)

/-- **The rule of most functions** stops at a disguised name, its own or one below it. -/
theorem settles_genericCall (ht : t.patterns = .builtin) (hsub : Stops sub n) {name : String}
    (hname : Text.asciiUpper name ∉ Catalog.subqueries)
    (hgroup : Text.asciiUpper name ≠ "SUMMARIZE") {args : List Expr}
    (h : Expr.heightAll args ≤ n) :
    Settles (IsDisguised name ∨ HasDisguised (Expr.visitedAll args)) openHole
      (genericCall t sub name args) := by
  rw [genericCall]
  rw [ht]
  split
  · next hnone =>
    have hplain : ¬IsDisguised name := fun hd => by
      obtain ⟨p, hp⟩ := exists_get?_of_isDisguised hd
      rw [hnone] at hp
      cases hp
    exact (settles_unknownCall hsub name h).congr (by simp [hplain])
  · next p hget =>
    obtain ⟨hp, hpname⟩ := PatternLibrary.mem_builtin_of_get? hget
    have hnotsub : p.name ∉ Catalog.subqueries := fun hmem =>
      hname (asciiUpper_mem_subqueries (hpname ▸ hmem))
    have hargs := settles_genericArgs (t := t) hsub p.params none h
    by_cases hdis : p.name = "SUMMARIZE"
    · have hd : IsDisguised name := ⟨hpname ▸ hdis, hgroup⟩
      exact (Settles.bind hargs fun _ => stops_applyPattern hp hdis _ _).congr (by simp [hd])
    · have hd : ¬IsDisguised name := fun hd => hdis (hpname ▸ hd.1)
      exact (Settles.bind_left hargs fun _ => settles_applyPattern hp hnotsub hdis _ _).congr
        (by simp [hd])

/-- A pattern that is found by an ASCII name in capitals is neither a subquery nor the grouping if
the name is not. -/
theorem settles_applyPattern_of_get? {name word : String} {p : Pattern}
    (hget : PatternLibrary.builtin.get? name = some p) (hword : Text.asciiUpper name = word)
    (hascii : word.toList.all Text.isAscii = true) (hsub : word ∉ Catalog.subqueries)
    (hgroup : word ≠ "SUMMARIZE") (args : List String) (table : Option String) :
    Settles False openHole (applyPattern t p args table) := by
  obtain ⟨hp, hpname⟩ := PatternLibrary.mem_builtin_of_get? hget
  rw [Text.upper_of_asciiUpper hword hascii] at hpname
  exact settles_applyPattern hp (hpname ▸ hsub) (hpname ▸ hgroup) _ _

/-- A condition on rows is nothing but an expression below. -/
theorem visited_iterated (source : Expr) :
    HasDisguised source.visited ↔ HasDisguised (iterated source).1.visited ∨
      ∃ c, (iterated source).2 = some c ∧ HasDisguised c.visited := by
  unfold iterated
  split
  · next f table condition =>
    by_cases hf : Text.asciiUpper f = "FILTER"
    · have hplain : ¬IsDisguised f := not_isDisguised hf rfl
      simp [hf, hplain, Expr.visited, Expr.visitedCall, Expr.visitedAll]
    · simp [hf]
  · simp

/-- The value that an iterator computes on each row, behind its condition. -/
theorem settles_guarded (hsub : Stops sub n) {expression : Expr} (h : expression.height ≤ n)
    {condition : Option Expr} (hcondition : ∀ c, condition = some c → c.height ≤ n) :
    Settles (HasDisguised expression.visited ∨ ∃ c, condition = some c ∧ HasDisguised c.visited)
      openHole (guarded sub expression condition) := by
  cases condition with
  | none => exact (hsub expression h).congr (by simp)
  | some c =>
    have hparts := (hsub expression h).inTurn (hsub c (hcondition c rfl))
    exact (Settles.bind_left hparts fun _ => .pure _).congr (by simp)

theorem settles_iteratorCall (ht : t.patterns = .builtin) (hsub : Stops sub n) {name word : String}
    (hword : Text.asciiUpper name = word) (hascii : word.toList.all Text.isAscii = true)
    (hname : word ∉ Catalog.subqueries) (hgroup : word ≠ "SUMMARIZE") {args : List Expr}
    (h : Expr.heightAll args ≤ n) :
    Settles (HasDisguised (Expr.visitedAll args)) openHole (iteratorCall t sub name args) := by
  obtain hunknown | hmalformed | ⟨p, source, expression, rest, hget, rfl⟩ :=
    iteratorCall_cases t sub name args
  · rw [hunknown]
    exact settles_unknownCall hsub name h
  · rw [hmalformed]
    exact settles_malformedCall hsub name _ h
  · simp only [Expr.heightAll] at h
    have hsource : source.height ≤ n := by omega
    have hexpression : expression.height ≤ n := by omega
    have hrest : Expr.heightAll rest ≤ n := by omega
    obtain ⟨htable, hcondition⟩ := height_iterated hsource
    have hguarded := settles_guarded hsub hexpression hcondition
    have hrows := fun tableSql row => Settles.bind (hguarded.withRow row) fun value =>
      Settles.bind_left (settles_renderAll hsub hrest) fun rest =>
        settles_applyPattern_of_get? (t := t) (ht ▸ hget) hword hascii hname hgroup
          (tableSql :: value :: rest) row
    have hall : Settles (HasDisguised (Expr.visitedAll (source :: expression :: rest))) openHole
        (overRows t sub p source expression rest) :=
      Settles.congr (Settles.bind (settles_tableArgument (t := t) hsub htable) fun a =>
        hrows a.1 a.2) (by
          simp only [Expr.visitedAll, hasDisguised_append, visited_iterated source]
          grind)
    rw [iteratorCall_rows hget]
    exact .ite (Settles.bind_right (settles_usePatternNamed t _) fun _ => hall) hall

theorem settles_switchCases (hsub : Stops sub n) {args : List Expr}
    (h : Expr.heightAll args ≤ n) :
    Settles (HasDisguised (Expr.visitedAll args)) openHole (switchCases sub args) := by
  fun_induction switchCases sub args with
  | case1 => exact (Settles.pure _).congr (by simp [Expr.visitedAll])
  | case2 last =>
    simp only [Expr.heightAll] at h
    refine Settles.congr (Settles.bind_left (hsub last (by omega)) fun _ => .pure _) ?_
    simp [Expr.visitedAll]
  | case3 value result rest ih =>
    simp only [Expr.heightAll] at h
    refine Settles.congr (Settles.bind (hsub value (by omega)) fun _ =>
      Settles.bind (hsub result (by omega)) fun _ =>
        Settles.bind_left (ih (by omega)) fun _ => .pure _) ?_
    simp [Expr.visitedAll]

/-- The pattern of a function with a rule of its own takes what the rule has for it. -/
theorem settles_fillPattern_of_get? {name word : String} {p : Pattern} {b : Bindings}
    (hget : PatternLibrary.builtin.get? name = some p) (hword : Text.asciiUpper name = word)
    (hascii : word.toList.all Text.isAscii = true) (hrule : Catalog.ruleHoles word ≠ [])
    (hb : ∀ hole ∈ Catalog.ruleHoles word, (b.lookup hole).isSome = true) :
    Settles False openHole (fillPattern t p b) := by
  obtain ⟨hp, hpname⟩ := PatternLibrary.mem_builtin_of_get? hget
  rw [Text.upper_of_asciiUpper hword hascii] at hpname
  refine settles_fillPattern t (p.render_eq_ok t.dialect fun hole hhole => .inl (hb hole ?_))
  rw [← hpname] at hrule ⊢
  exact Catalog.mem_ruleHoles hp hrule hhole

theorem settles_switchCall (ht : t.patterns = .builtin) (hsub : Stops sub n) (name : String)
    {args : List Expr} (h : Expr.heightAll args ≤ n) :
    Settles (HasDisguised (Expr.visitedAll args)) openHole (switchCall t sub name args) := by
  unfold switchCall
  split
  · next subject first second rest =>
    rw [Expr.heightAll] at h
    rw [Expr.visitedAll]
    have hpairs : Expr.heightAll (first :: second :: rest) ≤ n := by omega
    have hcases := settles_switchCases hsub hpairs
    refine Settles.congr (Settles.bind hcases fun cases => ?_)
      (Q := HasDisguised (subject.visited ++ Expr.visitedAll (first :: second :: rest)))
      (by rw [hasDisguised_append, or_comm])
    split
    · next htrue =>
      refine Settles.congr (Settles.bind_right (settles_usePatternNamed t _) fun _ => .pure _) ?_
      unfold isTrue at htrue
      split at htrue
      · simp [Expr.visited]
      · cases htrue
    · refine Settles.bind_left (hsub subject (by omega)) fun subjectSql => ?_
      rw [ht]
      split
      · next p hget =>
        refine Settles.bind_right (settles_usePattern t p) fun _ => ?_
        have hword : Text.asciiUpper "SWITCH" = "SWITCH" := rfl
        exact settles_fillPattern_of_get? hget hword rfl (by decide)
          (by simp [Catalog.ruleHoles, Catalog.subqueries])
      · exact .pure _
  · exact settles_malformedCall hsub name _ h

theorem settles_projected (hsub : Stops sub n) {args : List Expr}
    (h : Expr.heightAll args ≤ n) :
    Settles (HasDisguised (Expr.visitedAll args)) openHole (projected t sub args) := by
  fun_induction projected t sub args with
  | case1 => exact (Settles.pure _).congr (by simp [Expr.visitedAll])
  | case2 label value rest ih =>
    simp only [Expr.heightAll] at h
    refine Settles.congr (Settles.bind (hsub value (by omega)) fun _ =>
      Settles.bind_left (ih (by omega)) fun _ => .pure _) ?_
    simp [Expr.visitedAll, Expr.visited]
  | case3 other rest hne ih =>
    simp only [Expr.heightAll] at h
    refine Settles.congr (Settles.bind (hsub other (by omega)) fun _ =>
      Settles.bind_left (ih (by omega)) fun _ => .pure _) ?_
    simp [Expr.visitedAll]

/-- The functions that make a table by a rule of their own. -/
def projections : List String :=
  ["SUMMARIZE", "ADDCOLUMNS", "SELECTCOLUMNS"]

theorem settles_projectionCall (ht : t.patterns = .builtin) (hsub : Stops sub n) {name : String}
    (hname : Text.asciiUpper name ∈ projections) {args : List Expr}
    (h : Expr.heightAll args ≤ n) :
    Settles (HasDisguised (Expr.visitedAll args)) openHole (projectionCall t sub name args) := by
  have hascii : ∀ word ∈ projections, word.toList.all Text.isAscii = true := by
    decide
  rw [projectionCall]
  rw [ht]
  split
  · exact settles_unknownCall hsub name h
  · next p hget =>
    have hpname : p.name = Text.asciiUpper name := by
      rw [(PatternLibrary.mem_builtin_of_get? hget).2]
      exact Text.upper_of_asciiUpper rfl (hascii _ hname)
    have hfill := fun b => settles_fillPattern_of_get? (t := t) (b := b) hget rfl (hascii _ hname)
    split
    · exact settles_malformedCall hsub name _ h
    · next source rest =>
      simp only [Expr.heightAll] at h
      rw [Expr.visitedAll]
      refine Settles.congr (Settles.bind (settles_tableArgument hsub (by omega)) fun a =>
        Settles.bind_left ((settles_projected hsub (by omega)).alongRow a.2) fun b =>
          Settles.bind_right (settles_usePattern t p) fun _ => ?_) (hasDisguised_append _ _).symm
      rw [hpname]
      simp only [projections, List.mem_cons, List.not_mem_nil, or_false] at hname
      rcases hname with hname | hname | hname
      · rw [hname] at hfill
        simp only [hname, beq_self_eq_true, if_true]
        exact .ite (.pure _) (.ite (.pure _) (.ite (.pure _)
          (hfill _ (by decide) (by simp [Catalog.ruleHoles, Catalog.subqueries]))))
      · rw [hname] at hfill
        simp only [hname, String.reduceBEq, Bool.false_eq_true, if_false]
        exact .ite (.pure _)
          (hfill _ (by decide) (by simp [Catalog.ruleHoles, Catalog.subqueries]))
      · rw [hname] at hfill
        simp only [hname, String.reduceBEq, Bool.false_eq_true, if_false]
        exact .ite (.pure _)
          (hfill _ (by decide) (by simp [Catalog.ruleHoles, Catalog.subqueries]))

/-! ### Filters -/

theorem settles_addCondition {P : Prop} {err : TemplateError} {condition : Rendering String}
    (h : Settles P err condition) (column : Option ColumnRef) :
    Settles P err (addCondition t condition column) := by
  rw [addCondition]
  refine Settles.bind_left h fun _ => ?_
  split
  · exact Settles.bind_right (settles_resolveColumn t _) fun _ =>
      Settles.bind_right (.pure _) fun _ => settles_changeFilters _
  · exact Settles.bind_right (.pure _) fun _ => settles_changeFilters _

theorem settles_removeTarget {err : TemplateError} (e : Expr) :
    Settles False err (removeTarget t e) := by
  unfold removeTarget
  split
  · exact Settles.bind_right (settles_resolveTable t _) fun _ => settles_changeFilters _
  · refine Settles.bind_right (settles_resolveColumn t _) fun _ => ?_
    split
    · exact settles_changeFilters _
    · exact .pure _
  · exact .pure _

theorem settles_forM_removeTarget {err : TemplateError} (es : List Expr) :
    Settles False err (es.forM (removeTarget t)) := by
  induction es with
  | nil => exact .pure _
  | cons e es ih => exact Settles.bind_right (settles_removeTarget e) fun _ => ih

theorem settles_keptColumns {err : TemplateError} (es : List Expr) :
    Settles False err (keptColumns t es) := by
  fun_induction keptColumns t es with
  | case1 => exact .pure _
  | case2 ref rest ih =>
    exact Settles.bind_right (settles_resolveColumn t _) fun _ =>
      Settles.bind_right ih fun _ => .pure _
  | case3 e rest hne ih => exact ih

theorem settles_keepOnly {err : TemplateError} (es : List Expr) :
    Settles False err (keepOnly t es) := by
  unfold keepOnly
  split
  · exact .pure _
  · exact Settles.bind_right (settles_resolveTable t _) fun _ =>
      Settles.bind_right (settles_keptColumns _) fun _ => settles_changeFilters _
  · exact settles_removeTarget _

mutual

/-- **A filter argument** stops at the disguised names that putting it to the filters comes to. -/
theorem settles_applyFilter (hsub : Stops sub n) (e : Expr) (h : e.height ≤ n) :
    Settles (HasDisguised e.filtered) openHole (applyFilter t sub e) := by
  have hcondition := fun column => settles_addCondition (t := t) (hsub e h) column
  cases e with
  | call name args =>
    rw [Expr.visited] at hcondition
    have hremove : ∀ name, Settles False openHole (do
        usePatternNamed t name
        if args.isEmpty then
          changeFilters fun _ => .empty
        args.forM (removeTarget t)) := fun name =>
      Settles.bind_right (settles_usePatternNamed t name) fun _ =>
        .ite (Settles.bind_right (settles_changeFilters _) fun _ => settles_forM_removeTarget args)
          (settles_forM_removeTarget args)
    unfold applyFilter
    split
    · next hname => exact (hremove name).congr (by simp [Expr.filtered, hname])
    · next hname => exact (hremove name).congr (by simp [Expr.filtered, hname])
    · next hname =>
      exact (Settles.bind_right (settles_usePatternNamed t _) fun _ =>
        settles_keepOnly args).congr (by simp [Expr.filtered, hname])
    · next hname =>
      simp only [Expr.height] at h
      exact (Settles.bind_right (settles_usePatternNamed t _) fun _ =>
        settles_applyFilters hsub args (by omega)).congr (by simp [Expr.filtered, hname])
    · next hname =>
      have hfiltered : (Expr.call name args).filtered =
          name :: Expr.visitedCall (Text.asciiUpper name) args := by
        simp [Expr.filtered, hname]
      rw [hfiltered]
      split
      · next table predicate =>
        have hplain : ¬IsDisguised name := not_isDisguised hname rfl
        simp only [Expr.height, Expr.heightAll] at h
        refine Settles.congr (Settles.bind_right (settles_usePatternNamed t _) fun _ =>
          Settles.bind (settles_tableArgument hsub (e := table) (by omega)) fun a =>
            (settles_addCondition (hsub predicate (by omega)) _).withRow a.2) ?_
        simp [Expr.visitedCall, Expr.visitedAll, hname, hplain]
      · exact hcondition _
    · next hall hremoved hexcept hkeep hfilter =>
      have hfiltered : (Expr.call name args).filtered =
          name :: Expr.visitedCall (Text.asciiUpper name) args := by
        rw [Expr.filtered, if_neg (not_or.mpr ⟨hall, hremoved⟩), if_neg hexcept, if_neg hkeep]
      rw [hfiltered]
      exact hcondition _
  | _ =>
    unfold applyFilter Expr.filtered
    rw [Expr.visited] at hcondition
    exact hcondition _

theorem settles_applyFilters (hsub : Stops sub n) :
    ∀ es : List Expr, Expr.heightAll es ≤ n →
      Settles (HasDisguised (Expr.filteredAll es)) openHole (applyFilters t sub es)
  | [], _ => (Settles.pure _).congr (by simp [Expr.filteredAll])
  | e :: es, h => by
    simp only [Expr.heightAll] at h
    rw [Expr.filteredAll]
    exact Settles.congr (Settles.bind (settles_applyFilter hsub e (by omega)) fun _ =>
      settles_applyFilters hsub es (by omega)) (hasDisguised_append _ _).symm

end

theorem settles_subquery (ht : t.patterns = .builtin) {name : String}
    (hname : name ∈ Catalog.subqueries) {P Q : Prop} {apply : Rendering Unit}
    {expression : Rendering String} (happly : Settles P openHole apply)
    (hexpression : Settles Q openHole expression) :
    Settles (P ∨ Q) openHole (subquery t name apply expression) := by
  have hupper : ∀ word ∈ Catalog.subqueries,
      word.toList.all Text.isAscii = true ∧ Text.asciiUpper word = word := by
    decide +kernel
  rw [subquery]
  refine Settles.bind_left (Settles.keepingFilters ?_) fun a => ?_
  · exact Settles.bind happly.withScope fun _ =>
      Settles.bind_left hexpression.withScope fun a =>
        Settles.bind_right (settles_forM_useTable a.2) fun _ =>
          Settles.bind_right settles_get fun _ => .pure _
  rcases a with ⟨sql, tables, conditions⟩
  have hnone : Settles False openHole (do
      usePatternNamed t name
      Pure.pure sql) := Settles.bind_right (settles_usePatternNamed t name) fun _ => .pure _
  refine .ite (.ite hnone (Settles.bind_right (settles_note _ _) fun _ => hnone)) ?_
  refine Settles.bind_right (settles_fromClause t _) fun source => ?_
  rw [ht]
  cases hget : PatternLibrary.builtin.get? name with
  | none => exact .pure _
  | some p =>
    refine Settles.bind_right (settles_usePattern t p) fun _ => ?_
    refine settles_fillPattern_of_get? hget (hupper _ hname).2 (hupper _ hname).1 ?_ ?_
    · simp [Catalog.ruleHoles, hname]
    · simp [Catalog.ruleHoles, hname]

theorem settles_filteredCall (ht : t.patterns = .builtin) (hsub : Stops sub n) {name : String}
    (hname : Text.asciiUpper name = "CALCULATE" ∨ Text.asciiUpper name = "CALCULATETABLE")
    {args : List Expr} (h : Expr.heightAll args ≤ n) :
    Settles (HasDisguised (Expr.visitedCall (Text.asciiUpper name) args)) openHole
      (filteredCall t sub name args) := by
  unfold filteredCall
  split
  · exact (settles_malformedCall hsub name _ h).congr (by simp [Expr.visitedAll, Expr.visitedCall])
  · next expression filters =>
    simp only [Expr.heightAll] at h
    refine Settles.congr (settles_subquery ht (by rcases hname with h | h <;> rw [h] <;> decide)
      (settles_applyFilters hsub filters (by omega)) (hsub expression (by omega))) ?_
    rw [Expr.visitedCall, if_pos hname, hasDisguised_append, or_comm]

/-- The functions that total to date. -/
def totals : List String :=
  ["TOTALYTD", "TOTALQTD", "TOTALMTD"]

theorem settles_totalToDateCall (ht : t.patterns = .builtin) (hsub : Stops sub n) {name : String}
    (hname : Text.asciiUpper name ∈ totals) {args : List Expr} (h : Expr.heightAll args ≤ n) :
    Settles (HasDisguised (Expr.visitedCall (Text.asciiUpper name) args)) openHole
      (totalToDateCall t sub name args) := by
  have hsubquery : ∀ word ∈ totals, word ∈ Catalog.subqueries := by decide
  have hperiod : ∀ word ∈ totals, Text.asciiUpper (periodOf word) ∉ Catalog.subqueries ∧
      Text.asciiUpper (periodOf word) ≠ "SUMMARIZE" ∧ ¬IsDisguised (periodOf word) := by
    decide +kernel
  have hplain :
      ¬(Text.asciiUpper name = "CALCULATE" ∨ Text.asciiUpper name = "CALCULATETABLE") := by
    have hother : ∀ word ∈ totals, ¬(word = "CALCULATE" ∨ word = "CALCULATETABLE") := by decide
    exact hother _ hname
  have hdates : Text.asciiUpper name = "TOTALYTD" ∨ Text.asciiUpper name = "TOTALQTD" ∨
      Text.asciiUpper name = "TOTALMTD" := by
    simpa [totals] using hname
  unfold totalToDateCall
  split
  · next expression dates filters =>
    simp only [Expr.heightAll] at h
    obtain ⟨hsubq, hgroup, hshown⟩ := hperiod _ hname
    have hargs : Expr.heightAll [dates] ≤ n := by
      simp only [Expr.heightAll]
      omega
    refine Settles.congr (settles_subquery ht (hsubquery _ hname)
      (Settles.bind (settles_addCondition (settles_genericCall ht hsub hsubq hgroup hargs) _)
        fun _ => settles_applyFilters hsub filters (by omega)) (hsub expression (by omega))) ?_
    rw [Expr.visitedCall, if_neg hplain, if_pos hdates, Expr.visitedDates]
    simp [hshown, Expr.visitedAll, or_comm]
  · refine (settles_malformedCall hsub name _ h).congr ?_
    match args with
    | [] => simp [Expr.visitedAll, Expr.visitedCall]
    | [e] =>
      rw [Expr.visitedCall, if_neg hplain, if_pos hdates, Expr.visitedDates]
      simp [Expr.visitedAll]
    | e :: dates :: filters => next hne => exact absurd rfl (hne e dates filters)

/-- Where a call has no filters, all its arguments are rendered. -/
theorem visitedCall_eq_visitedAll {upper : String} (h : upper ∉ Catalog.subqueries)
    (args : List Expr) : Expr.visitedCall upper args = Expr.visitedAll args := by
  simp only [Catalog.subqueries, List.mem_cons, List.not_mem_nil, or_false, not_or] at h
  cases args with
  | nil => rw [Expr.visitedCall, Expr.visitedAll]
  | cons e es => rw [Expr.visitedCall, Expr.visitedAll, if_neg (by grind), if_neg (by grind)]

/-- **A call** stops at a disguised name, its own or one below it. -/
theorem settles_renderCall (ht : t.patterns = .builtin) (hsub : Stops sub n) {name : String}
    {args : List Expr} (h : Expr.heightAll args ≤ n) :
    Settles (HasDisguised (Expr.call name args).visited) openHole (renderCall t sub name args) := by
  have hruled : ∀ {word : String}, Text.asciiUpper name = word →
      word.toList.all Text.isAscii = true → ∀ {m : Rendering String},
      Settles (HasDisguised (Expr.visitedCall (Text.asciiUpper name) args)) openHole m →
        Settles (HasDisguised (Expr.call name args).visited) openHole m := by
    intro word hword hascii m hm
    refine hm.congr ?_
    simp [Expr.visited, not_isDisguised hword hascii]
  have hall : ∀ {word : String}, Text.asciiUpper name = word → word ∉ Catalog.subqueries →
      Expr.visitedCall (Text.asciiUpper name) args = Expr.visitedAll args := by
    intro word hword hnot
    exact visitedCall_eq_visitedAll (hword ▸ hnot) args
  have htotal : ∀ {word : String}, Text.asciiUpper name = word → word ∈ totals →
      word.toList.all Text.isAscii = true →
      Settles (HasDisguised (Expr.call name args).visited) openHole
        (totalToDateCall t sub name args) := fun hword hmem hascii =>
    hruled hword hascii (settles_totalToDateCall ht hsub (hword ▸ hmem) h)
  have hprojection : ∀ {word : String}, Text.asciiUpper name = word → word ∈ projections →
      word ∉ Catalog.subqueries → word.toList.all Text.isAscii = true →
      Settles (HasDisguised (Expr.call name args).visited) openHole
        (projectionCall t sub name args) := fun hword hmem hnot hascii =>
    hruled hword hascii (hall hword hnot ▸ settles_projectionCall ht hsub (hword ▸ hmem) h)
  have hiterator : ∀ {word : String}, Text.asciiUpper name = word → word ∉ Catalog.subqueries →
      word ≠ "SUMMARIZE" → word.toList.all Text.isAscii = true →
      Settles (HasDisguised (Expr.call name args).visited) openHole
        (iteratorCall t sub name args) := fun hword hnot hgroup hascii =>
    hruled hword hascii (hall hword hnot ▸ settles_iteratorCall ht hsub hword hascii hnot hgroup h)
  rw [renderCall]
  split
  · next hname => exact hruled hname rfl (settles_filteredCall ht hsub (.inl hname) h)
  · next hname => exact hruled hname rfl (settles_filteredCall ht hsub (.inr hname) h)
  · next hname => exact htotal hname (by decide) rfl
  · next hname => exact htotal hname (by decide) rfl
  · next hname => exact htotal hname (by decide) rfl
  · next hname =>
    exact hruled hname rfl
      (hall hname (by decide) ▸ settles_switchCall ht hsub name h)
  · next hname => exact hprojection hname (by decide) (by decide) rfl
  · next hname => exact hprojection hname (by decide) (by decide) rfl
  · next hname => exact hprojection hname (by decide) (by decide) rfl
  · next hname => exact hiterator hname (by decide) (by decide) rfl
  · next hname => exact hiterator hname (by decide) (by decide) rfl
  · next hname => exact hiterator hname (by decide) (by decide) rfl
  · next hname => exact hiterator hname (by decide) (by decide) rfl
  · next hname => exact hiterator hname (by decide) (by decide) rfl
  · next hcalc hcalct hytd hqtd hmtd hswitch hgroup _ _ _ _ _ _ _ =>
    have hnot : Text.asciiUpper name ∉ Catalog.subqueries := by
      simp only [Catalog.subqueries, List.mem_cons, List.not_mem_nil, or_false, not_or]
      exact ⟨hcalc, hcalct, hytd, hqtd, hmtd⟩
    refine (settles_genericCall ht hsub hnot hgroup h).congr ?_
    rw [Expr.visited, hasDisguised_cons, visitedCall_eq_visitedAll hnot]

end Rules

end Rendering

end MeasureSql
