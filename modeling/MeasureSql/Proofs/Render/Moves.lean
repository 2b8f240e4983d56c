import MeasureSql.Proofs.Render.Rules

/-!
# Where rendering leads

Rendering changes the state by a handful of moves: it lowers the confidence, with a warning or
without one, it records tables and patterns, it goes into the rows of a table or into a query of its
own and comes back, and it changes the filters for a part and takes the change back.  `Leads` says
which states can be reached by such moves.  What every move keeps, rendering keeps, whether it ends
with SQL or with an error.

The rows are the one thing that an error can leave behind: the columns of a table-maker are
rendered among the rows of its table, which are left only after the last column.

## Main definitions

* `Leads` — the states that moves lead to, with or without changes of the filters, and with or
  without rows that are not left.
* `Led` — a computation that makes no other moves, and leaves all rows if it gives a value.

## Main results

* `led_renderExpr` — rendering makes no other moves, and leaves the filters as they were.
* `Leads.rowTables_eq`, `Leads.rowTables_prefix`, `Leads.filters_eq` — what moves keep.
* `Leads.high`, `Leads.low` — how confidence and warnings go together.
-/

namespace MeasureSql.Rendering

open Dax

/-- The states that moves lead to; `free` says whether they may leave the filters changed, and
`loose` whether they may end inside rows. -/
inductive Leads : Bool → Bool → RenderState → RenderState → Prop
  | refl {free loose : Bool} (s : RenderState) : Leads free loose s s
  | trans {free loose : Bool} {s₁ s₂ s₃ : RenderState} (h : Leads free loose s₁ s₂)
      (h' : Leads free loose s₂ s₃) : Leads free loose s₁ s₃
  | note {free loose : Bool} {level : Confidence} (hlevel : level ≠ .high) (warning : String)
      (s : RenderState) : Leads free loose s (note level warning s).2
  | demote {free loose : Bool} (s : RenderState) : Leads free loose s (demote .medium s).2
  | table {free loose : Bool} (table : String) (s : RenderState) :
      Leads free loose s (useTable table s).2
  | pattern {free loose : Bool} (name : String) (s : RenderState) :
      Leads free loose s { s with patternsApplied := addNew s.patternsApplied name }
  | row {free loose : Bool} {name : String} {s s' : RenderState}
      (h : Leads free loose { s with rowTables := s.rowTables ++ [name] } s') :
      Leads free loose s { s' with rowTables := s'.rowTables.dropLast }
  | stay {free : Bool} {name : String} {s s' : RenderState}
      (h : Leads free true { s with rowTables := s.rowTables ++ [name] } s') :
      Leads free true s s'
  | scope {free loose : Bool} {s s' : RenderState}
      (h : Leads free loose { s with scopes := [] :: s.scopes } s') :
      Leads free loose s { s' with scopes := s'.scopes.tail }
  | filters {loose : Bool} (f : FilterContext) (s : RenderState) :
      Leads true loose s { s with filters := f }
  | keep {loose : Bool} {s s' : RenderState} (h : Leads true loose s s') :
      Leads false loose s { s' with filters := s.filters }

namespace Leads

variable {free loose : Bool} {s s' : RenderState}

/-- Moves are moves where more is allowed. -/
theorem mono {free' loose' : Bool} (h : Leads free loose s s') (hfree : free ≤ free')
    (hloose : loose ≤ loose') : Leads free' loose' s s' := by
  induction h generalizing free' with
  | refl s => exact .refl s
  | trans _ _ ih ih' => exact (ih hfree hloose).trans (ih' hfree hloose)
  | note hlevel warning s => exact .note hlevel warning s
  | demote s => exact .demote s
  | table table s => exact .table table s
  | pattern name s => exact .pattern name s
  | row _ ih => exact .row (ih hfree hloose)
  | stay _ ih =>
    obtain rfl : loose' = true := Bool.eq_true_of_true_le hloose
    exact .stay (ih hfree hloose)
  | scope _ ih => exact .scope (ih hfree hloose)
  | filters f s =>
    obtain rfl : free' = true := Bool.eq_true_of_true_le hfree
    exact .filters f s
  | keep _ ih =>
    cases free' with
    | false => exact .keep (ih (Bool.le_refl _) hloose)
    | true => exact (ih (Bool.le_refl _) hloose).trans (.filters _ _)

/-- Moves may end inside rows without doing so. -/
theorem loosen (h : Leads free loose s s') : Leads free true s s' :=
  h.mono (Bool.le_refl _) (Bool.le_true _)

/-- Moves that leave all rows may stand where rows may be left or not. -/
theorem widen (h : Leads free false s s') : Leads free loose s s' :=
  h.mono (Bool.le_refl _) (Bool.false_le _)

/-! ## What moves keep -/

/-- **The rows are as before**, unless moves may end inside rows: the last of them is the one that
was gone into. -/
theorem rowTables_eq (h : Leads free false s s') : s'.rowTables = s.rowTables := by
  generalize hloose : false = loose at h
  induction h with
  | trans _ _ ih ih' => exact (ih' hloose).trans (ih hloose)
  | row _ ih => rw [ih hloose, List.dropLast_concat]
  | stay _ _ => cases hloose
  | scope _ ih => exact ih hloose
  | keep _ ih => exact ih hloose
  | _ => rfl

/-- **No rows are lost**: those from before are still around. -/
theorem rowTables_prefix (h : Leads free loose s s') : s.rowTables <+: s'.rowTables := by
  induction h with
  | trans _ _ ih ih' => exact ih.trans ih'
  | row _ ih =>
    obtain ⟨more, hmore⟩ := ih
    rw [← hmore, List.append_assoc, List.dropLast_append_of_ne_nil (by simp)]
    exact List.prefix_append _ _
  | stay _ ih => exact (List.prefix_append _ _).trans ih
  | scope _ ih => exact ih
  | keep _ ih => exact ih
  | _ => exact List.prefix_rfl

/-- **The filters are as before**, unless moves are free to change them. -/
theorem filters_eq (h : Leads false loose s s') : s'.filters = s.filters := by
  generalize hfree : false = free at h
  induction h with
  | trans _ _ ih ih' => exact (ih' hfree).trans (ih hfree)
  | row _ ih => exact ih hfree
  | stay _ ih => exact ih hfree
  | scope _ ih => exact ih hfree
  | filters f s => cases hfree
  | _ => rfl

theorem demote_eq_high {a b : Confidence} (h : a.demote b = .high) : a = .high ∧ b = .high := by
  revert h
  cases a <;> cases b <;> decide

theorem eq_low_of_demote {a b : Confidence} (h : a.demote b = .low) : a = .low ∨ b = .low := by
  revert h
  cases a <;> cases b <;> decide

/-- A list that was added to is not empty. -/
theorem addNew_ne_nil (xs : List String) (x : String) : addNew xs x ≠ [] := by
  unfold addNew
  split
  · next h => exact List.ne_nil_of_mem (List.contains_iff_mem.mp h)
  · simp

/-- **High confidence was high before**, and nothing was warned of. -/
theorem high (h : Leads free loose s s') (hs' : s'.confidence = .high) :
    s.confidence = .high ∧ s'.warnings = s.warnings := by
  induction h with
  | trans _ _ ih ih' =>
    obtain ⟨hmid, hwarn'⟩ := ih' hs'
    obtain ⟨hs, hwarn⟩ := ih hmid
    exact ⟨hs, hwarn'.trans hwarn⟩
  | note hlevel warning s => exact absurd (demote_eq_high hs').2 hlevel
  | demote s => exact absurd (demote_eq_high hs').2 (by decide)
  | row _ ih => exact ih hs'
  | stay _ ih => exact ih hs'
  | scope _ ih => exact ih hs'
  | keep _ ih => exact ih hs'
  | _ => exact ⟨hs', rfl⟩

/-- **What was warned of stays.** -/
theorem warnings_eq_nil (h : Leads free loose s s') (hs' : s'.warnings = []) : s.warnings = [] := by
  induction h with
  | trans _ _ ih ih' => exact ih (ih' hs')
  | note hlevel warning s => exact absurd hs' (addNew_ne_nil _ _)
  | row _ ih => exact ih hs'
  | stay _ ih => exact ih hs'
  | scope _ ih => exact ih hs'
  | keep _ ih => exact ih hs'
  | _ => exact hs'

/-- **Low confidence was low before**, or there is a warning. -/
theorem low (h : Leads free loose s s') (hs' : s'.confidence = .low) :
    s.confidence = .low ∨ s'.warnings ≠ [] := by
  induction h with
  | trans _ h' ih ih' =>
    rcases ih' hs' with hmid | hwarn
    · rcases ih hmid with hs | hwarn
      · exact .inl hs
      · exact .inr fun hnil => hwarn (h'.warnings_eq_nil hnil)
    · exact .inr hwarn
  | note hlevel warning s => exact .inr (addNew_ne_nil _ _)
  | demote s => exact .inl ((eq_low_of_demote hs').resolve_right (by decide))
  | row _ ih => exact ih hs'
  | stay _ ih => exact ih hs'
  | scope _ ih => exact ih hs'
  | keep _ ih => exact ih hs'
  | _ => exact .inl hs'

end Leads

/-! ## Computations -/

/-- The computation makes no other moves, however it ends, and leaves all rows if it gives a
value. -/
def Led {α : Type} (free : Bool) (m : Rendering α) : Prop :=
  ∀ s, Leads free (!(m s).1.isOk) s (m s).2

section Computations

variable {α β : Type} {free : Bool}

namespace Led

/-- A computation that gives a value leaves all rows. -/
theorem of_ok {m : Rendering α} (h : Led free m) {s s' : RenderState} {a : α}
    (hrun : m s = (.ok a, s')) : Leads free false s s' := by
  have hleads := h s
  rwa [hrun] at hleads

theorem loosen {m : Rendering α} (h : Led free m) (s : RenderState) : Leads free true s (m s).2 :=
  (h s).loosen

theorem pure (a : α) : Led free (Pure.pure a : Rendering α) :=
  fun s => .refl s

theorem bind {m : Rendering α} {f : α → Rendering β} (hm : Led free m) (hf : ∀ a, Led free (f a)) :
    Led free (m >>= f) := by
  intro s
  rw [run_bind]
  rcases hrun : m s with ⟨err | a, s'⟩
  · have hfails := hm.loosen s
    rwa [hrun] at hfails
  · exact (hm.of_ok hrun).widen.trans (hf a s')

theorem ite {c : Prop} [Decidable c] {m n : Rendering α} (hm : Led free m) (hn : Led free n) :
    Led free (if c then m else n) := by
  split
  · exact hm
  · exact hn

/-- A computation that leaves the filters as they were may stand where they may change. -/
theorem relax {m : Rendering α} (h : Led false m) : Led free m :=
  fun s => (h s).mono (Bool.false_le _) (Bool.le_refl _)

theorem withRow (row : Option String) {act : Rendering α} (h : Led free act) :
    Led free (Rendering.withRow row act) := by
  cases row with
  | none => rwa [withRow_none]
  | some name =>
    intro s
    rw [run_withRow]
    exact .row (h _)

/-- Along rows an error ends inside them. -/
theorem alongRow (row : Option String) {act : Rendering α} (h : Led free act) :
    Led free (Rendering.alongRow row act) := by
  cases row with
  | none => rwa [alongRow_none]
  | some name =>
    intro s
    have hinside := h { s with rowTables := s.rowTables ++ [name] }
    rw [run_alongRow]
    generalize act { s with rowTables := s.rowTables ++ [name] } = r at hinside
    rcases r with ⟨err | a, s'⟩
    · exact .stay hinside
    · exact .row hinside

theorem inTurn {m : Rendering α} {n : Rendering β} (hm : Led free m) (hn : Led free n) :
    Led free (Rendering.inTurn m n) := by
  intro s
  have hfirst := hm s
  have hsecond := hn (m s).2
  rw [isOk_inTurn, run_inTurn]
  cases hok : (m s).1.isOk with
  | true =>
    rw [hok] at hfirst
    exact hfirst.widen.trans hsecond
  | false => exact hfirst.loosen.trans hsecond.loosen

theorem withScope {act : Rendering α} (h : Led free act) :
    Led free (Rendering.withScope act) := by
  intro s
  have hinside := h { s with scopes := [] :: s.scopes }
  rw [Rendering.withScope]
  generalize act { s with scopes := [] :: s.scopes } = r at hinside
  rcases r with ⟨err | a, s'⟩ <;> exact .scope hinside

theorem keepingFilters {act : Rendering α} (h : Led true act) :
    Led false (Rendering.keepingFilters act) :=
  fun s => .keep (h s)

end Led

theorem led_get : Led free (get : Rendering RenderState) :=
  fun s => .refl s

theorem led_note {level : Confidence} (hlevel : level ≠ .high) (warning : String) :
    Led free (note level warning) :=
  fun s => .note hlevel warning s

theorem led_useTable (table : String) : Led free (useTable table) :=
  fun s => .table table s

theorem led_changeFilters (f : FilterContext → FilterContext) : Led true (changeFilters f) :=
  fun s => .filters _ s

theorem led_usePattern (t : Target) (p : Pattern) : Led free (usePattern t p) := by
  have hmedium : ∀ warning, Led free (note .medium warning) := led_note (by decide)
  have hdialect : Led free
      (if p.isDialectSpecific && !t.dialect.runsTemplates then
        note .medium (p.name ++ " uses Snowflake-specific SQL; review it for " ++ t.dialect.name)
      else Pure.pure ()) := .ite (hmedium _) (.pure _)
  have hcomplex : Led free (do
      if p.complexity = .complex || p.category = .timeIntelligence then
        demote .medium
      if p.isDialectSpecific && !t.dialect.runsTemplates then
        note .medium
          (p.name ++ " uses Snowflake-specific SQL; review it for " ++ t.dialect.name)) :=
    .ite (Led.bind (fun s => .demote s) fun _ => hdialect) hdialect
  exact Led.bind (fun s => .pattern p.name s) fun _ =>
    .ite (Led.bind (hmedium _) fun _ => hcomplex) hcomplex

theorem led_usePatternNamed (t : Target) (name : String) : Led free (usePatternNamed t name) := by
  rw [usePatternNamed]
  split
  · exact led_usePattern t _
  · exact .pure _

theorem led_forM {xs : List α} {f : α → Rendering Unit} (h : ∀ x, Led free (f x)) :
    Led free (xs.forM f) := by
  induction xs with
  | nil => exact .pure _
  | cons x xs ih => exact Led.bind (h x) fun _ => ih

theorem led_resolveTable (t : Target) (name : String) : Led free (resolveTable t name) := by
  have huse : ∀ resolved, Led free (do useTable resolved; Pure.pure resolved) :=
    fun resolved => Led.bind (led_useTable resolved) fun _ => .pure _
  rw [resolveTable]
  dsimp only
  split
  · split
    · exact Led.bind (.pure _) huse
    · exact Led.bind (led_note (by decide) _) fun _ => Led.bind (.pure _) huse
  · exact Led.bind (led_note (by decide) _) fun _ => Led.bind (.pure _) huse

theorem led_resolveColumn (t : Target) (ref : ColumnRef) : Led free (resolveColumn t ref) := by
  rw [resolveColumn]
  split
  · refine Led.bind (led_resolveTable t _) fun _ => ?_
    split
    · exact .pure _
    · split
      · exact .pure _
      · exact Led.bind (led_note (by decide) _) fun _ => .pure _
  · rw [resolveBare]
    split
    · refine Led.bind led_get fun _ => ?_
      split
      · exact Led.bind (led_useTable _) fun _ => .pure _
      · exact Led.bind (led_note (by decide) _) fun _ => .pure _
    · refine Led.bind (led_note (by decide) _) fun _ => Led.bind led_get fun _ => ?_
      split
      · exact .pure _
      · exact .pure _

theorem led_noteUnjoined (base : String) (tables : List String) :
    Led free (noteUnjoined base tables) := by
  induction tables with
  | nil => exact .pure _
  | cons table tables ih => exact Led.bind (led_note (by decide) _) fun _ => ih

theorem led_reachable (schema : Schema) (base : String) (tables : List String) :
    Led free (reachable schema base tables) := by
  induction tables with
  | nil => exact .pure _
  | cons table tables ih =>
    rw [reachable]
    exact .ite (Led.bind ih fun _ => .pure _) (Led.bind (led_note (by decide) _) fun _ => ih)

theorem led_fromClause (t : Target) (tables : List String) : Led free (fromClause t tables) := by
  unfold fromClause
  split
  · exact .pure _
  · refine .ite (.pure _) ?_
    split
    · exact Led.bind (led_noteUnjoined _ _) fun _ => .pure _
    · refine Led.bind (led_reachable _ _ _) fun others => ?_
      split
      · exact .pure _
      · exact Led.bind (led_note (by decide) _) fun _ => .pure _

theorem led_fillPattern (t : Target) (p : Pattern) (bindings : Bindings) :
    Led free (fillPattern t p bindings) := by
  rw [fillPattern]
  split
  · exact .pure _
  · exact fun s => .refl s

theorem led_noteMissing (pattern : String) (params : List String) :
    Led free (noteMissing pattern params) := by
  induction params with
  | nil => exact .pure _
  | cons param params ih => exact Led.bind (led_note (by decide) _) fun _ => ih

theorem led_applyPattern (t : Target) (p : Pattern) (args : List String) (table : Option String) :
    Led free (applyPattern t p args table) := by
  have hfill : ∀ bindings, Led free (do usePattern t p; fillPattern t p bindings) :=
    fun bindings => Led.bind (led_usePattern t p) fun _ => led_fillPattern t p bindings
  rw [applyPattern]
  refine Led.bind (led_noteMissing _ _) fun _ => ?_
  refine .ite (Led.bind (led_note (by decide) _) fun _ => ?_) ?_
  all_goals
    dsimp only
    split
    · split
      · exact hfill _
      · exact Led.bind (led_note (by decide) _) fun _ => hfill _
    · exact hfill _

end Computations

/-! ## Rules -/

section Rules

variable {t : Target} {sub : Expr → Rendering String} {free : Bool}

theorem led_renderAll (hsub : ∀ e, Led false (sub e)) (es : List Expr) :
    Led free (renderAll sub es) := by
  induction es with
  | nil => exact .pure _
  | cons e es ih => exact Led.bind (hsub e).relax fun _ => Led.bind ih fun _ => .pure _

theorem led_tableArgument (hsub : ∀ e, Led false (sub e)) (e : Expr) :
    Led free (tableArgument t sub e) := by
  unfold tableArgument
  split
  · exact Led.bind (led_resolveTable t _) fun _ => .pure _
  · exact Led.bind (hsub e).relax fun _ => .pure _

theorem led_plainCall (hsub : ∀ e, Led false (sub e)) (name : String) (args : List Expr) :
    Led free (plainCall t sub name args) :=
  Led.bind (led_renderAll hsub args) fun _ => .pure _

theorem led_unknownCall (hsub : ∀ e, Led false (sub e)) (name : String) (args : List Expr) :
    Led free (unknownCall t sub name args) :=
  Led.bind (led_note (by decide) _) fun _ => led_plainCall hsub name args

theorem led_malformedCall (hsub : ∀ e, Led false (sub e)) (name : String) (args : List Expr)
    (usage : String) : Led free (malformedCall t sub name args usage) :=
  Led.bind (led_note (by decide) _) fun _ => led_plainCall hsub name args

theorem led_genericArgs (hsub : ∀ e, Led false (sub e)) (params : List String)
    (table : Option String) (args : List Expr) :
    Led free (genericArgs t sub params table args) := by
  induction args generalizing params table with
  | nil => exact .pure _
  | cons arg args ih =>
    unfold genericArgs
    dsimp only
    split
    · exact Led.bind (led_resolveColumn t _) fun _ => Led.bind (.pure _) fun _ =>
        Led.bind (ih _ _) fun _ => .pure _
    · exact Led.bind (hsub _).relax fun _ => Led.bind (.pure _) fun _ =>
        Led.bind (ih _ _) fun _ => .pure _

theorem led_genericCall (hsub : ∀ e, Led false (sub e)) (name : String) (args : List Expr) :
    Led free (genericCall t sub name args) := by
  rw [genericCall]
  split
  · exact led_unknownCall hsub name args
  · exact Led.bind (led_genericArgs hsub _ _ args) fun _ => led_applyPattern t _ _ _

/-- The value that an iterator computes on each row, behind its condition. -/
theorem led_guarded (hsub : ∀ e, Led false (sub e)) (expression : Expr) (condition : Option Expr) :
    Led free (guarded sub expression condition) := by
  cases condition with
  | none => exact (hsub expression).relax
  | some c =>
    exact Led.bind ((hsub expression).relax.inTurn (hsub c).relax) fun _ => .pure _

theorem led_iteratorCall (hsub : ∀ e, Led false (sub e)) (name : String) (args : List Expr) :
    Led free (iteratorCall t sub name args) := by
  obtain hunknown | hmalformed | ⟨p, source, expression, rest, hget, rfl⟩ :=
    iteratorCall_cases t sub name args
  · rw [hunknown]
    exact led_unknownCall hsub name args
  · rw [hmalformed]
    exact led_malformedCall hsub name args _
  · have hrows : Led free (overRows t sub p source expression rest) :=
      Led.bind (led_tableArgument hsub _) fun a =>
        Led.bind (Led.withRow a.2 (led_guarded hsub _ _)) fun _ =>
          Led.bind (led_renderAll hsub rest) fun _ => led_applyPattern t _ _ _
    rw [iteratorCall_rows hget]
    exact .ite (Led.bind (led_usePatternNamed t _) fun _ => hrows) hrows

theorem led_switchCases (hsub : ∀ e, Led false (sub e)) (args : List Expr) :
    Led free (switchCases sub args) := by
  fun_induction switchCases sub args with
  | case1 => exact .pure _
  | case2 last => exact Led.bind (hsub last).relax fun _ => .pure _
  | case3 value result rest ih =>
    exact Led.bind (hsub value).relax fun _ => Led.bind (hsub result).relax fun _ =>
      Led.bind ih fun _ => .pure _

theorem led_switchCall (hsub : ∀ e, Led false (sub e)) (name : String) (args : List Expr) :
    Led free (switchCall t sub name args) := by
  unfold switchCall
  split
  · refine Led.bind (led_switchCases hsub _) fun _ => ?_
    refine .ite (Led.bind (led_usePatternNamed t _) fun _ => .pure _) ?_
    refine Led.bind (hsub _).relax fun _ => ?_
    split
    · exact Led.bind (led_usePattern t _) fun _ => led_fillPattern t _ _
    · exact .pure _
  · exact led_malformedCall hsub name args _

theorem led_projected (hsub : ∀ e, Led false (sub e)) (args : List Expr) :
    Led free (projected t sub args) := by
  fun_induction projected t sub args with
  | case1 => exact .pure _
  | case2 label value rest ih =>
    exact Led.bind (hsub value).relax fun _ => Led.bind ih fun _ => .pure _
  | case3 other rest hne ih =>
    exact Led.bind (hsub other).relax fun _ => Led.bind ih fun _ => .pure _

theorem led_projectionCall (hsub : ∀ e, Led false (sub e)) (name : String) (args : List Expr) :
    Led free (projectionCall t sub name args) := by
  rw [projectionCall]
  split
  · exact led_unknownCall hsub name args
  · split
    · exact led_malformedCall hsub name _ _
    · refine Led.bind (led_tableArgument hsub _) fun _ => ?_
      refine Led.bind (Led.alongRow _ (led_projected hsub _)) fun _ => ?_
      refine Led.bind (led_usePattern t _) fun _ => ?_
      refine .ite ?_ (.ite (.pure _) (led_fillPattern t _ _))
      exact .ite (.pure _) (.ite (.pure _) (.ite (.pure _) (led_fillPattern t _ _)))

/-! ### Filters -/

/-- A condition that has been rendered is put to the filters, under the key of a column. -/
def fileCondition (t : Target) (column : Option ColumnRef) (condition : String) :
    Rendering Unit :=
  addCondition t (Pure.pure condition) column

theorem addCondition_eq (condition : Rendering String) (column : Option ColumnRef) :
    addCondition t condition column = condition >>= fileCondition t column := rfl

theorem led_fileCondition (column : Option ColumnRef) (condition : String) :
    Led true (fileCondition t column condition) := by
  refine Led.bind (.pure _) fun _ => ?_
  cases column with
  | none => exact Led.bind (.pure _) fun _ => led_changeFilters _
  | some ref =>
    exact Led.bind (led_resolveColumn t ref) fun _ =>
      Led.bind (.pure _) fun _ => led_changeFilters _

theorem led_addCondition {condition : Rendering String} (h : Led true condition)
    (column : Option ColumnRef) : Led true (addCondition t condition column) :=
  Led.bind h (led_fileCondition column)

theorem led_removeTarget (e : Expr) : Led true (removeTarget t e) := by
  unfold removeTarget
  split
  · exact Led.bind (led_resolveTable t _) fun _ => led_changeFilters _
  · refine Led.bind (led_resolveColumn t _) fun _ => ?_
    split
    · exact led_changeFilters _
    · exact .pure _
  · exact .pure _

theorem led_keptColumns (es : List Expr) : Led free (keptColumns t es) := by
  fun_induction keptColumns t es with
  | case1 => exact .pure _
  | case2 ref rest ih =>
    exact Led.bind (led_resolveColumn t ref) fun _ => Led.bind ih fun _ => .pure _
  | case3 e rest hne ih => exact ih

theorem led_keepOnly (es : List Expr) : Led true (keepOnly t es) := by
  unfold keepOnly
  split
  · exact .pure _
  · exact Led.bind (led_resolveTable t _) fun _ =>
      Led.bind (led_keptColumns _) fun _ => led_changeFilters _
  · exact led_removeTarget _

mutual

theorem led_applyFilter (hsub : ∀ e, Led false (sub e)) :
    ∀ e : Expr, Led true (applyFilter t sub e)
  | .call name args => by
    have hcondition := led_addCondition (t := t) (hsub (.call name args)).relax
    have hremove : ∀ name, Led true (do
        usePatternNamed t name
        if args.isEmpty then
          changeFilters fun _ => .empty
        args.forM (removeTarget t)) := fun name =>
      Led.bind (led_usePatternNamed t name) fun _ =>
        .ite (Led.bind (led_changeFilters _) fun _ => led_forM led_removeTarget)
          (led_forM led_removeTarget)
    unfold applyFilter
    split
    · exact hremove name
    · exact hremove name
    · exact Led.bind (led_usePatternNamed t _) fun _ => led_keepOnly args
    · exact Led.bind (led_usePatternNamed t _) fun _ => led_applyFilters hsub args
    · split
      · exact Led.bind (led_usePatternNamed t _) fun _ =>
          Led.bind (led_tableArgument hsub _) fun _ =>
            Led.withRow _ (led_addCondition (hsub _).relax _)
      · exact hcondition _
    · exact hcondition _
  | .literal _ | .column _ | .table _ | .binary _ _ _ | .unary _ _ | .variable _ _ | .cond _ _ _
  | .measure _ _ _ _ => by
    unfold applyFilter
    exact led_addCondition (hsub _).relax _

theorem led_applyFilters (hsub : ∀ e, Led false (sub e)) :
    ∀ es : List Expr, Led true (applyFilters t sub es)
  | [] => .pure _
  | e :: es => Led.bind (led_applyFilter hsub e) fun _ => led_applyFilters hsub es

end

/-- **A subquery takes back what it did to the filters.** -/
theorem led_subquery {name : String} {apply : Rendering Unit} {expression : Rendering String}
    (happly : Led true apply) (hexpression : Led false expression) :
    Led false (subquery t name apply expression) := by
  rw [subquery]
  refine Led.bind (Led.keepingFilters (Led.bind happly.withScope fun _ =>
    Led.bind hexpression.relax.withScope fun _ => Led.bind (led_forM led_useTable) fun _ =>
      Led.bind led_get fun _ => .pure _)) fun a => ?_
  have hnamed : Led false (do usePatternNamed t name; Pure.pure a.1) :=
    Led.bind (led_usePatternNamed t name) fun _ => .pure _
  refine .ite (.ite hnamed (Led.bind (led_note (by decide) _) fun _ => hnamed)) ?_
  refine Led.bind (led_fromClause t _) fun _ => ?_
  dsimp only
  cases t.patterns.get? name with
  | some p => exact Led.bind (led_usePattern t p) fun _ => led_fillPattern t p _
  | none => exact .pure _

theorem led_renderCall (hsub : ∀ e, Led false (sub e)) (name : String) (args : List Expr) :
    Led false (renderCall t sub name args) := by
  have hfiltered : Led false (filteredCall t sub name args) := by
    unfold filteredCall
    split
    · exact led_malformedCall hsub name _ _
    · exact led_subquery (led_applyFilters hsub _) (hsub _)
  have htotal : Led false (totalToDateCall t sub name args) := by
    unfold totalToDateCall
    split
    · exact led_subquery (Led.bind (led_addCondition (led_genericCall hsub _ _) _) fun _ =>
        led_applyFilters hsub _) (hsub _)
    · exact led_malformedCall hsub name args _
  rw [renderCall]
  split
  all_goals first
    | exact hfiltered
    | exact htotal
    | exact led_switchCall hsub name args
    | exact led_projectionCall hsub name args
    | exact led_iteratorCall hsub name args
    | exact led_genericCall hsub name args

theorem led_renderBinary (hsub : ∀ e, Led false (sub e)) (l : Expr) (op : BinaryOp) (r : Expr) :
    Led free (renderBinary t sub l op r) := by
  have hoperand : ∀ e parent onRight, Led free (renderOperand sub e parent onRight) :=
    fun e _ _ => Led.bind (hsub e).relax fun _ => .pure _
  rw [renderBinary]
  refine .ite (Led.bind (hoperand _ _ _) fun _ => .pure _) ?_
  refine .ite (Led.bind (hsub l).relax fun _ => Led.bind (hsub r).relax fun _ => .pure _) ?_
  refine Led.bind (hoperand _ _ _) fun _ => Led.bind (hoperand _ _ _) fun _ => ?_
  exact .ite (.ite (.pure _) (.pure _)) (.pure _)

/-- **One level of rendering** makes no other moves when the levels below do not. -/
theorem led_renderWith (hsub : ∀ e, Led false (sub e)) (e : Expr) :
    Led false (renderWith t sub e) := by
  cases e with
  | literal value => exact .pure _
  | column ref => exact Led.bind (led_resolveColumn t ref) fun _ => .pure _
  | table name =>
    exact .ite (.pure _) (.ite (.pure _) (Led.bind (led_resolveTable t name) fun _ => .pure _))
  | call name args => exact led_renderCall hsub name args
  | binary l op r => exact led_renderBinary hsub l op r
  | unary op e =>
    refine Led.bind (hsub e) fun _ => ?_
    cases op with
    | negate => exact .pure _
    | not => exact .pure _
  | «variable» name value =>
    cases value with
    | none => exact Led.bind (led_note (by decide) _) fun _ => .pure _
    | some value => exact Led.bind (hsub value) fun _ => .pure _
  | cond c a e =>
    refine Led.bind (hsub c) fun _ => Led.bind (hsub a) fun _ =>
      Led.bind (led_renderAll hsub _) fun _ => ?_
    split
    · exact led_applyPattern t _ _ _
    · exact .pure _
  | measure name body format description => exact Led.bind (hsub body) fun _ => .pure _

end Rules

/-- Rendering by levels makes no other moves. -/
theorem led_renderLevels (t : Target) (levels : Nat) (e : Expr) :
    Led false (renderLevels t levels e) := by
  induction levels generalizing e with
  | zero => exact .pure _
  | succ levels ih => exact led_renderWith ih e

/-- **Rendering makes no other moves**, and leaves the filters as they were. -/
theorem led_renderExpr (t : Target) (e : Expr) : Led false (renderExpr t e) :=
  led_renderLevels t e.height e

end MeasureSql.Rendering
