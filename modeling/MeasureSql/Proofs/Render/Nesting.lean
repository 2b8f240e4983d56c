import MeasureSql.Proofs.Render.Course
import MeasureSql.Proofs.Render.Predicates

/-!
# Parts among rows

Three rules render parts among the rows of a table: an iterator its value and the condition of its
filtered table, a filtered table as a filter its condition, and a table-maker its columns.  All
other parts are rendered among the rows where their whole is.  So the rows at any part that
rendering comes to are, from the outermost in, those of the plain tables around it that one of these
rules iterates.  A filtered table that stands by itself is rendered as any other call, and its
condition is not among its rows.

## Main definitions

* `parts` — the parts of an expression, each with the table whose rows are around it.
* `Encloses` — the parts of parts, with all tables around them.
* `AlikeAmong` — two computations that do the same among some rows.

## Main results

* `alikeAmong_renderWith` — one level depends on its parts, each among its rows.
* `Course.encloses` — the rows at every part that rendering comes to.
-/

namespace MeasureSql.Rendering

open Dax

/-! ## Parts -/

/-- A part of an expression, with the tables whose rows are around it. -/
abbrev Part := List String × Expr

/-- The name of a plain table, whose rows can be iterated. -/
def tablesOf : Expr → List String
  | .table name => [name]
  | _ => []

/-- Parts that are rendered where their whole is. -/
def here (es : List Expr) : List Part :=
  es.map ([], ·)

mutual

/-- The parts of a filter. -/
def filterParts : Expr → List Part
  | .call name args => match Text.asciiUpper name with
    | "ALL" | "REMOVEFILTERS" | "ALLEXCEPT" => []
    | "KEEPFILTERS" => filtersParts args
    | "FILTER" => match args with
      | [table, predicate] => [([], table), (tablesOf table, predicate)]
      | _ => [([], .call name args)]
    | _ => [([], .call name args)]
  | e => [([], e)]

/-- The parts of filters. -/
def filtersParts : List Expr → List Part
  | [] => []
  | e :: es => filterParts e ++ filtersParts es

end

variable (t : Target)

/-- The parts of an iterator: the value and the condition on the rows are among these. -/
def iteratorParts (name : String) (args : List Expr) : List Part :=
  match t.patterns.get? name, args with
  | some _, source :: expression :: rest =>
    let (table, condition) := iterated source
    ([], table) :: (expression :: condition.toList).map (tablesOf table, ·) ++ here rest
  | _, _ => here args

/-- The parts of a table-maker: its columns are among the rows. -/
def projectionParts (name : String) (args : List Expr) : List Part :=
  match t.patterns.get? name, args with
  | some _, source :: rest => ([], source) :: rest.map (tablesOf source, ·)
  | _, _ => here args

/-- The parts of an expression under its own filters. -/
def filteredParts : List Expr → List Part
  | [] => []
  | expression :: filters => ([], expression) :: filtersParts filters

/-- The parts of a total to date. -/
def totalParts : List Expr → List Part
  | expression :: dates :: filters =>
    ([], expression) :: ([], dates) :: filtersParts filters
  | args => here args

/-- The parts of a call, by its rule. -/
def callParts (name : String) (args : List Expr) : List Part :=
  match route name with
  | .calculate | .calculateTable => filteredParts args
  | .total => totalParts args
  | .iterator => iteratorParts t name args
  | .projection => projectionParts t name args
  | .switch | .generic => here args

/-- **The parts of an expression.** -/
def parts : Expr → List Part
  | .literal _ | .column _ | .table _ => []
  | .call name args => callParts t name args
  | .binary l _ r => here [l, r]
  | .unary _ e => here [e]
  | .variable _ value => here value.toList
  | .cond c a e => here (c :: a :: e.toList)
  | .measure _ body _ _ => here [body]

/-- **The parts of parts**, with all tables around them, the innermost last. -/
inductive Encloses (e : Expr) : List String → Expr → Prop
  | refl : Encloses e [] e
  | step {tables : List String} {c : Expr} {part : Part} (h : Encloses e tables c)
      (hpart : part ∈ parts t c) : Encloses e (tables ++ part.1) part.2

variable {t}

/-! ## Among rows -/

/-- The computations do the same among the rows: they give the same value in the same state, again
among the rows, or they fail with the same error. -/
def AlikeAmong (rows : List String) (α : Type) (m m' : Rendering α) : Prop :=
  ∀ s, s.rowTables = rows →
    (∃ a u, m s = (.ok a, u) ∧ m' s = (.ok a, u) ∧ u.rowTables = rows) ∨
    ∃ err u u', m s = (.error err, u) ∧ m' s = (.error err, u')

section Alike

variable {α β : Type} {rows : List String}

namespace AlikeAmong

/-- What does the same in a state does the same among the rows. -/
theorem at_state {m m' : Rendering α} (h : Led true m) {s : RenderState} (hs : s.rowTables = rows)
    (hsame : m s = m' s) :
    (∃ a u, m s = (.ok a, u) ∧ m' s = (.ok a, u) ∧ u.rowTables = rows) ∨
      ∃ err u u', m s = (.error err, u) ∧ m' s = (.error err, u') := by
  rcases hrun : m s with ⟨err | a, u⟩
  · exact .inr ⟨err, u, u, rfl, hsame ▸ hrun⟩
  · exact .inl ⟨a, u, rfl, hsame ▸ hrun, (h.of_ok hrun).rowTables_eq.trans hs⟩

theorem of_led {m : Rendering α} (h : Led true m) : AlikeAmong rows α m m :=
  fun _ hs => at_state h hs rfl

theorem pure (a : α) : AlikeAmong rows α (Pure.pure a) (Pure.pure a) :=
  of_led (.pure a)

theorem result_eq {m m' : Rendering α} (h : AlikeAmong rows α m m') {s : RenderState}
    (hs : s.rowTables = rows) : (m s).1 = (m' s).1 := by
  obtain ⟨a, u, hm, hm', -⟩ | ⟨err, u, u', hm, hm'⟩ := h s hs
  · rw [hm, hm']
  · rw [hm, hm']

theorem bind {m m' : Rendering α} {f f' : α → Rendering β} (hm : AlikeAmong rows α m m')
    (hf : ∀ a, AlikeAmong rows β (f a) (f' a)) : AlikeAmong rows β (m >>= f) (m' >>= f') := by
  intro s hs
  rw [run_bind, run_bind]
  obtain ⟨a, u, hrun, hrun', hrows⟩ | ⟨err, u, u', hrun, hrun'⟩ := hm s hs
  · rw [hrun, hrun']
    exact hf a u hrows
  · rw [hrun, hrun']
    exact .inr ⟨err, u, u', rfl, rfl⟩

/-- What becomes of the states after an error does not matter. -/
theorem endsLike {m m' n n' : Rendering α} (h : AlikeAmong rows α m m') (hn : EndsLike n m)
    (hn' : EndsLike n' m') : AlikeAmong rows α n n' := by
  intro s hs
  obtain ⟨a, u, hm, hm', hrows⟩ | ⟨err, u, u', hm, hm'⟩ := h s hs
  · exact .inl ⟨a, u, hn.of_ok hm, hn'.of_ok hm', hrows⟩
  · obtain ⟨v, hv⟩ := hn.of_error hm
    obtain ⟨v', hv'⟩ := hn'.of_error hm'
    exact .inr ⟨err, v, v', hv, hv'⟩

theorem withRow (row : Option String) {act act' : Rendering α}
    (h : AlikeAmong (rows ++ row.toList) α act act') :
    AlikeAmong rows α (Rendering.withRow row act) (Rendering.withRow row act') := by
  cases row with
  | none => rwa [withRow_none, withRow_none, ← List.append_nil rows]
  | some name =>
    intro s hs
    rw [run_withRow, run_withRow]
    obtain ⟨a, u, hact, hact', hrows⟩ | ⟨err, u, u', hact, hact'⟩ :=
      h { s with rowTables := s.rowTables ++ [name] } (by rw [hs]; rfl)
    · rw [hact, hact']
      exact .inl ⟨a, _, rfl, rfl, by dsimp only; rw [hrows]; exact List.dropLast_concat⟩
    · rw [hact, hact']
      exact .inr ⟨err, _, _, rfl, rfl⟩

theorem alongRow (row : Option String) {act act' : Rendering α}
    (h : AlikeAmong (rows ++ row.toList) α act act') :
    AlikeAmong rows α (Rendering.alongRow row act) (Rendering.alongRow row act') :=
  (withRow row h).endsLike (alongRow_endsLike row act) (alongRow_endsLike row act')

/-- Two parts in turn.  What the second does after an error need not be the same. -/
theorem inTurn {m m' : Rendering α} {n n' : Rendering β} (hm : AlikeAmong rows α m m')
    (hn : AlikeAmong rows β n n') :
    AlikeAmong rows (α × β) (Rendering.inTurn m n) (Rendering.inTurn m' n') :=
  endsLike (hm.bind fun _ => hn.bind fun _ => .pure _) (inTurn_endsLike m n) (inTurn_endsLike m' n')

theorem withScope {act act' : Rendering α} (h : AlikeAmong rows α act act') :
    AlikeAmong rows (α × List String) (Rendering.withScope act) (Rendering.withScope act') := by
  intro s hs
  simp only [Rendering.withScope]
  obtain ⟨a, u, hact, hact', hrows⟩ | ⟨err, u, u', hact, hact'⟩ :=
    h { s with scopes := [] :: s.scopes } hs
  · rw [hact, hact']
    exact .inl ⟨_, _, rfl, rfl, hrows⟩
  · rw [hact, hact']
    exact .inr ⟨err, _, _, rfl, rfl⟩

theorem keepingFilters {act act' : Rendering α} (h : AlikeAmong rows α act act') :
    AlikeAmong rows α (Rendering.keepingFilters act) (Rendering.keepingFilters act') := by
  intro s hs
  simp only [Rendering.keepingFilters]
  obtain ⟨a, u, hact, hact', hrows⟩ | ⟨err, u, u', hact, hact'⟩ := h s hs
  · rw [hact, hact']
    exact .inl ⟨a, _, rfl, rfl, hrows⟩
  · rw [hact, hact']
    exact .inr ⟨err, _, _, rfl, rfl⟩

end AlikeAmong

end Alike

/-! ## Rules -/

section Rules

variable {rows : List String} {sub sub' : Expr → Rendering String}

/-- The parts are rendered alike, each among its rows. -/
def AgreeOn (t : Target) (rows : List String) (sub sub' : Expr → Rendering String)
    (ps : List Part) : Prop :=
  ∀ p ∈ ps, AlikeAmong (rows ++ p.1.map (tableAt t)) String (sub p.2) (sub' p.2)

theorem agreeOn_map {tables : List String} {es : List Expr} :
    AgreeOn t rows sub sub' (es.map (tables, ·)) ↔
      ∀ e ∈ es, AlikeAmong (rows ++ tables.map (tableAt t)) String (sub e) (sub' e) :=
  List.forall_mem_map

theorem agreeOn_here {es : List Expr} :
    AgreeOn t rows sub sub' (here es) ↔ ∀ e ∈ es, AlikeAmong rows String (sub e) (sub' e) := by
  rw [here, agreeOn_map, List.map_nil, List.append_nil]

theorem agreeOn_cons {p : Part} {ps : List Part} :
    AgreeOn t rows sub sub' (p :: ps) ↔
      AlikeAmong (rows ++ p.1.map (tableAt t)) String (sub p.2) (sub' p.2) ∧
        AgreeOn t rows sub sub' ps :=
  List.forall_mem_cons

theorem agreeOn_cons_here {e : Expr} {ps : List Part} :
    AgreeOn t rows sub sub' (([], e) :: ps) ↔
      AlikeAmong rows String (sub e) (sub' e) ∧ AgreeOn t rows sub sub' ps := by
  rw [agreeOn_cons, List.map_nil, List.append_nil]

theorem agreeOn_append {ps qs : List Part} :
    AgreeOn t rows sub sub' (ps ++ qs) ↔
      AgreeOn t rows sub sub' ps ∧ AgreeOn t rows sub sub' qs :=
  List.forall_mem_append

theorem alikeAmong_renderAll {es : List Expr}
    (h : ∀ e ∈ es, AlikeAmong rows String (sub e) (sub' e)) :
    AlikeAmong rows (List String) (renderAll sub es) (renderAll sub' es) := by
  induction es with
  | nil => exact .pure _
  | cons e es ih =>
    obtain ⟨he, hes⟩ := List.forall_mem_cons.mp h
    exact he.bind fun _ => (ih hes).bind fun _ => .pure _

/-- What comes after a table argument is among the rows of the table if it is a plain one. -/
theorem AlikeAmong.bind_tableArgument {α : Type} {source : Expr}
    (hsource : AlikeAmong rows String (sub source) (sub' source))
    {f f' : String × Option String → Rendering α}
    (hf : ∀ a, a.2.toList = (tablesOf source).map (tableAt t) →
      AlikeAmong rows α (f a) (f' a)) :
    AlikeAmong rows α (tableArgument t sub source >>= f) (tableArgument t sub' source >>= f') := by
  cases source with
  | table name =>
    intro s hs
    obtain ⟨s₁, hrun, hrows⟩ := gives_resolveTable (t := t) name s hs
    simp only [tableArgument, run_bind, hrun]
    exact hf (_, _) rfl s₁ hrows
  | _ =>
    simp only [tableArgument, bind_assoc, pure_bind]
    exact hsource.bind fun sql => hf (sql, none) rfl

theorem alikeAmong_plainCall (name : String) {args : List Expr}
    (h : ∀ e ∈ args, AlikeAmong rows String (sub e) (sub' e)) :
    AlikeAmong rows String (plainCall t sub name args) (plainCall t sub' name args) :=
  (alikeAmong_renderAll h).bind fun _ => .pure _

theorem alikeAmong_unknownCall (name : String) {args : List Expr}
    (h : ∀ e ∈ args, AlikeAmong rows String (sub e) (sub' e)) :
    AlikeAmong rows String (unknownCall t sub name args) (unknownCall t sub' name args) :=
  (AlikeAmong.of_led (led_note (by decide) _)).bind fun _ => alikeAmong_plainCall name h

theorem alikeAmong_malformedCall (name : String) {args : List Expr} (usage : String)
    (h : ∀ e ∈ args, AlikeAmong rows String (sub e) (sub' e)) :
    AlikeAmong rows String (malformedCall t sub name args usage)
      (malformedCall t sub' name args usage) :=
  (AlikeAmong.of_led (led_note (by decide) _)).bind fun _ => alikeAmong_plainCall name h

theorem alikeAmong_genericArgs (params : List String) (table : Option String) {args : List Expr}
    (h : ∀ e ∈ args, AlikeAmong rows String (sub e) (sub' e)) :
    AlikeAmong rows (List String × Option String) (genericArgs t sub params table args)
      (genericArgs t sub' params table args) := by
  induction args generalizing params table with
  | nil => exact .pure _
  | cons arg args ih =>
    obtain ⟨harg, hargs⟩ := List.forall_mem_cons.mp h
    have hrest : ∀ (sql : String) (table : Option String), AlikeAmong rows _
        (genericArgs t sub params.tail table args >>= fun rest =>
          Pure.pure (sql :: rest.1, rest.2))
        (genericArgs t sub' params.tail table args >>= fun rest =>
          Pure.pure (sql :: rest.1, rest.2)) := fun sql table =>
      (ih params.tail table hargs).bind fun _ => .pure _
    cases arg with
    | column ref =>
      exact (AlikeAmong.of_led (led_resolveColumn t ref)).bind fun _ =>
        (AlikeAmong.pure _).bind fun _ => hrest _ _
    | _ => exact harg.bind fun _ => (AlikeAmong.pure _).bind fun _ => hrest _ _

theorem alikeAmong_genericCall (name : String) {args : List Expr}
    (h : ∀ e ∈ args, AlikeAmong rows String (sub e) (sub' e)) :
    AlikeAmong rows String (genericCall t sub name args) (genericCall t sub' name args) := by
  unfold genericCall
  cases t.patterns.get? name with
  | none => exact alikeAmong_unknownCall name h
  | some p =>
    exact (alikeAmong_genericArgs _ _ h).bind fun _ => .of_led (led_applyPattern t p _ _)

theorem alikeAmong_guarded {expression : Expr} {condition : Option Expr}
    (hexpression : AlikeAmong rows String (sub expression) (sub' expression))
    (hcondition : ∀ c, condition = some c → AlikeAmong rows String (sub c) (sub' c)) :
    AlikeAmong rows String (guarded sub expression condition)
      (guarded sub' expression condition) := by
  cases condition with
  | none => exact hexpression
  | some c => exact (hexpression.inTurn (hcondition c rfl)).bind fun _ => .pure _

/-- **An iterator** renders its value and the condition on its rows among the rows of its table. -/
theorem alikeAmong_iteratorCall {name : String} {args : List Expr}
    (h : AgreeOn t rows sub sub' (iteratorParts t name args)) :
    AlikeAmong rows String (iteratorCall t sub name args) (iteratorCall t sub' name args) := by
  unfold iteratorCall
  unfold iteratorParts at h
  cases hget : t.patterns.get? name with
  | none =>
    simp only [hget] at h
    exact alikeAmong_unknownCall name (agreeOn_here.mp h)
  | some p =>
    rcases args with _ | ⟨source, _ | ⟨expression, rest⟩⟩
    · simp only [hget] at h
      exact alikeAmong_malformedCall name _ (agreeOn_here.mp h)
    · simp only [hget] at h
      exact alikeAmong_malformedCall name _ (agreeOn_here.mp h)
    · simp only [hget, List.cons_append, agreeOn_cons_here, agreeOn_append, agreeOn_map,
        agreeOn_here, List.forall_mem_cons] at h
      obtain ⟨htable, ⟨hexpression, hcondition⟩, hrest⟩ := h
      have hguarded := alikeAmong_guarded hexpression fun c hc => hcondition c (by simpa using hc)
      have hrows : AlikeAmong rows String (overRows t sub p source expression rest)
          (overRows t sub' p source expression rest) :=
        AlikeAmong.bind_tableArgument (t := t) htable fun a hrow =>
          (AlikeAmong.withRow a.2 (hrow ▸ hguarded)).bind fun value =>
            (alikeAmong_renderAll hrest).bind fun rest =>
              .of_led (led_applyPattern t p (a.1 :: value :: rest) a.2)
      dsimp only
      split
      · exact (AlikeAmong.of_led (led_usePatternNamed t _)).bind fun _ => hrows
      · exact hrows

theorem alikeAmong_switchCases {args : List Expr}
    (h : ∀ e ∈ args, AlikeAmong rows String (sub e) (sub' e)) :
    AlikeAmong rows (List String) (switchCases sub args) (switchCases sub' args) := by
  fun_induction switchCases sub args with
  | case1 => exact .pure _
  | case2 last => exact (h last (by simp)).bind fun _ => .pure _
  | case3 value result rest ih =>
    obtain ⟨hvalue, hresult, hrest⟩ := (List.forall_mem_cons.mp h).imp id List.forall_mem_cons.mp
    exact hvalue.bind fun _ => hresult.bind fun _ => (ih hrest).bind fun _ => .pure _

theorem alikeAmong_switchCall (name : String) {args : List Expr}
    (h : ∀ e ∈ args, AlikeAmong rows String (sub e) (sub' e)) :
    AlikeAmong rows String (switchCall t sub name args) (switchCall t sub' name args) := by
  rcases args with _ | ⟨subject, _ | ⟨first, _ | ⟨second, rest⟩⟩⟩
  · exact alikeAmong_malformedCall name _ h
  · exact alikeAmong_malformedCall name _ h
  · exact alikeAmong_malformedCall name _ h
  · obtain ⟨hsubject, hcases⟩ := List.forall_mem_cons.mp h
    refine (alikeAmong_switchCases hcases).bind fun cases => ?_
    dsimp only
    split
    · exact .of_led (Led.bind (led_usePatternNamed t _) fun _ => .pure _)
    · refine hsubject.bind fun _ => .of_led ?_
      cases t.patterns.get? "SWITCH" with
      | some p => exact Led.bind (led_usePattern t p) fun _ => (led_fillPattern t p _).relax
      | none => exact .pure _

theorem alikeAmong_projected {args : List Expr}
    (h : ∀ e ∈ args, AlikeAmong rows String (sub e) (sub' e)) :
    AlikeAmong rows (List String × List String) (projected t sub args) (projected t sub' args) := by
  fun_induction projected t sub args with
  | case1 => exact .pure _
  | case2 label value rest ih =>
    obtain ⟨-, hvalue, hrest⟩ := (List.forall_mem_cons.mp h).imp id List.forall_mem_cons.mp
    exact hvalue.bind fun _ => (ih hrest).bind fun _ => .pure _
  | case3 other rest hne ih =>
    rw [projected.eq_3 _ _ _ _ hne]
    obtain ⟨hother, hrest⟩ := List.forall_mem_cons.mp h
    exact hother.bind fun _ => (ih hrest).bind fun _ => .pure _

/-- **A table-maker** renders its columns among the rows of its table. -/
theorem alikeAmong_projectionCall {name : String} {args : List Expr}
    (h : AgreeOn t rows sub sub' (projectionParts t name args)) :
    AlikeAmong rows String (projectionCall t sub name args) (projectionCall t sub' name args) := by
  unfold projectionCall
  unfold projectionParts at h
  cases hget : t.patterns.get? name with
  | none =>
    simp only [hget] at h
    exact alikeAmong_unknownCall name (agreeOn_here.mp h)
  | some p =>
    rcases args with _ | ⟨source, rest⟩
    · simp only [hget] at h
      exact alikeAmong_malformedCall name _ (agreeOn_here.mp h)
    · simp only [hget, agreeOn_cons_here, agreeOn_map] at h
      refine AlikeAmong.bind_tableArgument h.1 fun a hrow => ?_
      refine (AlikeAmong.alongRow a.2 (hrow ▸ alikeAmong_projected h.2)).bind fun b => .of_led ?_
      refine Led.bind (led_usePattern t p) fun _ => ?_
      have hfill : ∀ bindings, Led true (fillPattern t p bindings) :=
        fun bindings => (led_fillPattern t p bindings).relax
      exact .ite (.ite (.pure _) (.ite (.pure _) (.ite (.pure _) (hfill _))))
        (.ite (.pure _) (hfill _))

theorem alikeAmong_addCondition {m m' : Rendering String} (h : AlikeAmong rows String m m')
    (column : Option ColumnRef) :
    AlikeAmong rows Unit (addCondition t m column) (addCondition t m' column) := by
  rw [addCondition_eq, addCondition_eq]
  exact h.bind fun condition => .of_led (led_fileCondition column condition)

mutual

/-- **A filter**: the condition of a filtered table is among the rows of the table. -/
theorem alikeAmong_applyFilter :
    ∀ e : Expr, AgreeOn t rows sub sub' (filterParts e) →
      AlikeAmong rows Unit (applyFilter t sub e) (applyFilter t sub' e)
  | .call name args, h => by
    have hcondition : AgreeOn t rows sub sub' [([], .call name args)] → AlikeAmong rows Unit
        (addCondition t (sub (.call name args)) (Expr.firstColumnOf? args))
        (addCondition t (sub' (.call name args)) (Expr.firstColumnOf? args)) := fun h =>
      alikeAmong_addCondition (agreeOn_cons_here.mp h).1 _
    unfold filterParts at h
    unfold applyFilter
    generalize Text.asciiUpper name = upper at h
    dsimp only
    split at h
    · exact .of_led (Led.bind (led_usePatternNamed t _) fun _ => .ite
        (Led.bind (led_changeFilters _) fun _ => led_forM fun e => led_removeTarget e)
        (led_forM fun e => led_removeTarget e))
    · exact .of_led (Led.bind (led_usePatternNamed t _) fun _ => .ite
        (Led.bind (led_changeFilters _) fun _ => led_forM fun e => led_removeTarget e)
        (led_forM fun e => led_removeTarget e))
    · exact .of_led (Led.bind (led_usePatternNamed t _) fun _ => led_keepOnly args)
    · exact (AlikeAmong.of_led (led_usePatternNamed t _)).bind fun _ =>
        alikeAmong_applyFilters args h
    · rcases args with _ | ⟨table, _ | ⟨predicate, _ | ⟨third, rest⟩⟩⟩
      · exact hcondition h
      · exact hcondition h
      · obtain ⟨htable, hpredicate⟩ := agreeOn_cons_here.mp h
        refine (AlikeAmong.of_led (led_usePatternNamed t _)).bind fun _ =>
          AlikeAmong.bind_tableArgument htable fun a hrow => AlikeAmong.withRow a.2 ?_
        rw [hrow]
        exact alikeAmong_addCondition (agreeOn_cons.mp hpredicate).1 _
      · exact hcondition h
    · simpa only using hcondition h
  | .literal _, h | .column _, h | .table _, h | .binary _ _ _, h | .unary _ _, h
  | .variable _ _, h | .cond _ _ _, h | .measure _ _ _ _, h => by
    unfold applyFilter
    exact alikeAmong_addCondition (agreeOn_cons_here.mp h).1 _

theorem alikeAmong_applyFilters :
    ∀ es : List Expr, AgreeOn t rows sub sub' (filtersParts es) →
      AlikeAmong rows Unit (applyFilters t sub es) (applyFilters t sub' es)
  | [], _ => .pure _
  | e :: es, h => by
    obtain ⟨he, hes⟩ := agreeOn_append.mp h
    exact (alikeAmong_applyFilter e he).bind fun _ => alikeAmong_applyFilters es hes

end

theorem alikeAmong_subquery {name : String} {apply apply' : Rendering Unit}
    {expression expression' : Rendering String} (happly : AlikeAmong rows Unit apply apply')
    (hexpression : AlikeAmong rows String expression expression') :
    AlikeAmong rows String (subquery t name apply expression)
      (subquery t name apply' expression') := by
  refine (AlikeAmong.keepingFilters (happly.withScope.bind fun _ =>
    hexpression.withScope.bind fun a => .of_led (Led.bind (led_forM led_useTable) fun _ =>
      Led.bind led_get fun _ => .pure _))).bind fun b => .of_led ?_
  have hnamed : Led true (do usePatternNamed t name; Pure.pure b.1) :=
    Led.bind (led_usePatternNamed t name) fun _ => .pure _
  refine .ite (.ite hnamed (Led.bind (led_note (by decide) _) fun _ => hnamed)) ?_
  refine Led.bind (led_fromClause t _) fun _ => ?_
  dsimp only
  cases t.patterns.get? name with
  | some p => exact Led.bind (led_usePattern t p) fun _ => (led_fillPattern t p _).relax
  | none => exact .pure _

theorem alikeAmong_filteredCall (name : String) {args : List Expr}
    (h : AgreeOn t rows sub sub' (filteredParts args)) :
    AlikeAmong rows String (filteredCall t sub name args) (filteredCall t sub' name args) := by
  cases args with
  | nil => exact alikeAmong_malformedCall name _ (by simp)
  | cons expression filters =>
    obtain ⟨hexpression, hfilters⟩ := agreeOn_cons_here.mp h
    exact alikeAmong_subquery (alikeAmong_applyFilters filters hfilters) hexpression

theorem alikeAmong_totalToDateCall (name : String) {args : List Expr}
    (h : AgreeOn t rows sub sub' (totalParts args)) :
    AlikeAmong rows String (totalToDateCall t sub name args)
      (totalToDateCall t sub' name args) := by
  rcases args with _ | ⟨expression, _ | ⟨dates, filters⟩⟩
  · exact alikeAmong_malformedCall name _ (agreeOn_here.mp h)
  · exact alikeAmong_malformedCall name _ (agreeOn_here.mp h)
  · obtain ⟨hexpression, h⟩ := agreeOn_cons_here.mp h
    obtain ⟨hdates, hfilters⟩ := agreeOn_cons_here.mp h
    exact alikeAmong_subquery ((alikeAmong_addCondition
      (alikeAmong_genericCall _ (by simpa using hdates)) _).bind fun _ =>
        alikeAmong_applyFilters filters hfilters) hexpression

theorem alikeAmong_renderCall {name : String} {args : List Expr}
    (h : AgreeOn t rows sub sub' (callParts t name args)) :
    AlikeAmong rows String (renderCall t sub name args) (renderCall t sub' name args) := by
  rw [renderCall_eq, renderCall_eq]
  unfold callParts at h
  cases hroute : route name with
  | calculate => exact alikeAmong_filteredCall name (by simpa only [hroute] using h)
  | calculateTable => exact alikeAmong_filteredCall name (by simpa only [hroute] using h)
  | total => exact alikeAmong_totalToDateCall name (by simpa only [hroute] using h)
  | iterator => exact alikeAmong_iteratorCall (by simpa only [hroute] using h)
  | projection => exact alikeAmong_projectionCall (by simpa only [hroute] using h)
  | switch =>
    exact alikeAmong_switchCall name (agreeOn_here.mp (by simpa only [hroute] using h))
  | generic =>
    exact alikeAmong_genericCall name (agreeOn_here.mp (by simpa only [hroute] using h))

theorem alikeAmong_renderBinary {l r : Expr} (op : BinaryOp)
    (hl : AlikeAmong rows String (sub l) (sub' l)) (hr : AlikeAmong rows String (sub r) (sub' r)) :
    AlikeAmong rows String (renderBinary t sub l op r) (renderBinary t sub' l op r) := by
  have hoperand : ∀ {e : Expr} (parent : Nat) (onRight : Bool),
      AlikeAmong rows String (sub e) (sub' e) → AlikeAmong rows String
        (renderOperand sub e parent onRight) (renderOperand sub' e parent onRight) :=
    fun _ _ he => he.bind fun _ => .pure _
  unfold renderBinary
  split
  · refine (hoperand _ _ ?_).bind fun _ => .pure _
    split
    · exact hl
    · exact hr
  · split
    · exact hl.bind fun _ => hr.bind fun _ => .pure _
    · refine (hoperand _ _ hl).bind fun _ => (hoperand _ _ hr).bind fun _ => .of_led ?_
      exact .ite (.ite (.pure _) (.pure _)) (.pure _)

/-- **One level depends on its parts**, each among its rows. -/
theorem alikeAmong_renderWith {e : Expr} (h : AgreeOn t rows sub sub' (parts t e)) :
    AlikeAmong rows String (renderWith t sub e) (renderWith t sub' e) := by
  cases e with
  | literal value => exact .pure _
  | column ref => exact .of_led (Led.bind (led_resolveColumn t ref) fun _ => .pure _)
  | table name =>
    exact .of_led (.ite (.pure _) (.ite (.pure _)
      (Led.bind (led_resolveTable t name) fun _ => .pure _)))
  | call name args => exact alikeAmong_renderCall h
  | binary l op r =>
    have hparts := agreeOn_here.mp h
    exact alikeAmong_renderBinary op (hparts l (by simp)) (hparts r (by simp))
  | unary op e =>
    refine (agreeOn_here.mp h e (by simp)).bind fun _ => ?_
    cases op with
    | negate => exact .pure _
    | not => exact .pure _
  | «variable» name value =>
    cases value with
    | none => exact .of_led (Led.bind (led_note (by decide) _) fun _ => .pure _)
    | some value => exact (agreeOn_here.mp h value (by simp)).bind fun _ => .pure _
  | cond c a e =>
    have hparts := agreeOn_here.mp h
    refine (hparts c (by simp)).bind fun _ => (hparts a (by simp)).bind fun _ =>
      (alikeAmong_renderAll fun e' he => hparts e' (by simp [he])).bind fun _ => .of_led ?_
    split
    · exact led_applyPattern t _ _ _
    · exact .pure _
  | measure name body format description =>
    exact (agreeOn_here.mp h body (by simp)).bind fun _ => .pure _

end Rules

/-! ## The course -/

variable {x y : Expr × RenderState}

/-- **What rendering comes to is a part**, among the rows of the part. -/
theorem ComesTo.exists_part (h : ComesTo t x y) :
    ∃ part ∈ parts t x.1, part.2 = y.1 ∧
      y.2.rowTables = x.2.rowTables ++ part.1.map (tableAt t) := by
  obtain ⟨sub, hsub, hdiffers⟩ := h
  by_contra hnone
  have hagree : AgreeOn t x.2.rowTables (renderExpr t) sub (parts t x.1) := by
    intro part hpart s hs
    refine AlikeAmong.at_state (led_renderExpr t part.2).relax hs (hsub part.2 s ?_).symm
    rintro rfl
    exact hnone ⟨part, hpart, rfl, hs⟩
  rw [renderExpr_eq] at hdiffers
  exact hdiffers ((alikeAmong_renderWith hagree).result_eq rfl).symm

/-- **The rows at every part that rendering comes to** are those of the tables around it. -/
theorem Course.encloses (h : Course t x y) :
    ∃ tables, Encloses t x.1 tables y.1 ∧
      y.2.rowTables = x.2.rowTables ++ tables.map (tableAt t) := by
  induction h with
  | refl => exact ⟨[], .refl, by simp⟩
  | tail _ hcomes ih =>
    obtain ⟨tables, hencloses, hrows⟩ := ih
    obtain ⟨part, hpart, heq, hrows'⟩ := hcomes.exists_part
    refine ⟨tables ++ part.1, heq ▸ hencloses.step hpart, ?_⟩
    rw [hrows', hrows, List.map_append, List.append_assoc]

end MeasureSql.Rendering
