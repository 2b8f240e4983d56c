import MeasureSql.Proofs.FilterHistory
import MeasureSql.Proofs.Render.Isolation
import MeasureSql.Proofs.Render.Sources
import MeasureSql.Proofs.Render.Where

/-!
# Predicates and modifiers

Among the filters of a call some are predicates, which are put to the filters in force, and some are
modifiers, which take filters away.  Both are applied from left to right, and a modifier does not
know which conditions the call has inherited and which are its own: it takes away its own ones too,
if they stand before it.  So a predicate stays in force exactly if no modifier behind it takes its
key away, and the order of the filters plays no part exactly if no modifier takes away the key of a
predicate at all.

## Main definitions

* `Dax.Expr.targets?`, `Dax.Expr.isPredicate` — modifiers with their targets, and predicates.
* `Rendering.removals`, `Rendering.removes` — what a modifier takes away.
* `Rendering.Lasts` — the predicates of a call that no later modifier takes away.
* `Rendering.Guarded` — no predicate stands before a modifier that takes it away.

## Main results

* `Rendering.isInForce_of_applyFilter` — one filter.
* `Rendering.isInForce_inside` — the filters of a call.
* `Rendering.isInForce_inside_perm_iff` — when their order plays no part.
* `Engine.conditions_of_query` — the conditions of the subqueries of a query.
-/

namespace MeasureSql

open Dax

namespace Dax.Expr

/-- The targets of a modifier, which takes away the filters on them, or all filters if it has no
targets. -/
def targets? : Expr → Option (List Expr)
  | .call name args =>
    if Text.asciiUpper name ∈ ["ALL", "REMOVEFILTERS"] then some args else none
  | _ => none

/-- Is the filter put to those in force as it is? -/
def isPredicate : Expr → Bool
  | .call name args =>
    !(["ALL", "REMOVEFILTERS", "ALLEXCEPT", "KEEPFILTERS"].contains (Text.asciiUpper name) ||
      (Text.asciiUpper name == "FILTER" && args.length == 2))
  | _ => true

theorem targets?_of_isPredicate {e : Expr} (he : e.isPredicate = true) : e.targets? = none := by
  cases e with
  | call name args =>
    simp only [isPredicate, List.contains_cons, List.contains_nil, Bool.not_eq_true',
      Bool.or_eq_false_iff, beq_eq_false_iff_ne] at he
    simp [targets?, he.1.1, he.1.2.1]
  | _ => rfl

end Dax.Expr

namespace Rendering

open FilterContext

variable {t : Target} {rows : List String}

/-! ## Modifiers -/

section Definitions

variable (t : Target) (rows : List String)

/-- The change that a target of a modifier stands for, if it is a table or a column of one. -/
def removal? : Expr → Option Change
  | .table name => some (.removeTable (tableAt t name))
  | .column ref =>
    (columnAt t rows ref).table.map (.removeColumn · (columnAt t rows ref).column)
  | _ => none

/-- The changes that a modifier stands for. -/
def removals (targets : List Expr) : List Change :=
  (if targets.isEmpty then [.reset] else []) ++ targets.filterMap (removal? t rows)

/-- Does the filter take away the conditions of a key? -/
def removes (e : Expr) (k : String) : Bool :=
  match e.targets? with
  | some targets => (removals t rows targets).any (·.takesAway k)
  | none => false

end Definitions

theorem added?_of_mem_removals {targets : List Expr} {change : Change}
    (h : change ∈ removals t rows targets) : change.added? = none := by
  rcases List.mem_append.mp h with h | h
  · split at h
    · rw [List.mem_singleton.mp h]
      rfl
    · cases h
  · obtain ⟨target, -, htarget⟩ := List.mem_filterMap.mp h
    cases target with
    | table name =>
      cases htarget
      rfl
    | column ref =>
      obtain ⟨table, -, rfl⟩ := Option.map_eq_some_iff.mp htarget
      rfl
    | _ => cases htarget

theorem run_removeTarget (target : Expr) {s : RenderState} (hs : s.rowTables = rows) :
    ∃ s', removeTarget t target s = (.ok (), s') ∧ s'.rowTables = rows ∧
      s'.filters = (removal? t rows target).toList.foldl FilterContext.apply s.filters := by
  cases target with
  | table name =>
    obtain ⟨s₁, hrun, hrows, hfilters⟩ :=
      (gives_resolveTable name).keeps (led_resolveTable t name) hs
    rw [removeTarget, run_bind, hrun]
    exact ⟨_, rfl, hrows, by rw [← hfilters]; rfl⟩
  | column ref =>
    obtain ⟨s₁, hrun, hrows, hfilters⟩ :=
      (gives_resolveColumn ref).keeps (led_resolveColumn t ref) hs
    rw [removeTarget, run_bind, hrun, removal?, ← hfilters]
    dsimp only
    cases (columnAt t rows ref).table with
    | none => exact ⟨s₁, rfl, hrows, rfl⟩
    | some table => exact ⟨_, rfl, hrows, rfl⟩
  | _ => exact ⟨s, rfl, hs, rfl⟩

theorem run_removeTargets (targets : List Expr) {s : RenderState} (hs : s.rowTables = rows) :
    ∃ s', targets.forM (removeTarget t) s = (.ok (), s') ∧ s'.rowTables = rows ∧
      s'.filters = (targets.filterMap (removal? t rows)).foldl FilterContext.apply s.filters := by
  induction targets generalizing s with
  | nil => exact ⟨s, rfl, hs, rfl⟩
  | cons target targets ih =>
    obtain ⟨s₁, hrun, hrows, hfilters⟩ := run_removeTarget (t := t) target hs
    obtain ⟨s₂, hrun₂, hrows₂, hfilters₂⟩ := ih hrows
    refine ⟨s₂, ?_, hrows₂, ?_⟩
    · show (removeTarget t target >>= fun _ => targets.forM (removeTarget t)) s = _
      rw [run_bind, hrun]
      exact hrun₂
    · rw [hfilters₂, hfilters, List.filterMap_cons]
      cases removal? t rows target <;> rfl

theorem gives_usePatternNamed (name : String) : Gives rows (usePatternNamed t name) () := by
  unfold usePatternNamed
  cases t.patterns.get? name with
  | none => exact .pure _
  | some p => exact gives_usePattern p

/-- **A modifier** makes its changes. -/
theorem run_modifier {sub : Expr → Rendering String} {e : Expr} {targets : List Expr}
    (he : e.targets? = some targets) {s : RenderState} (hs : s.rowTables = rows) :
    ∃ s', applyFilter t sub e s = (.ok (), s') ∧ s'.rowTables = rows ∧
      s'.filters = (removals t rows targets).foldl FilterContext.apply s.filters := by
  cases e with
  | call name args =>
    simp only [Expr.targets?, Option.ite_none_right_eq_some, Option.some.injEq] at he
    obtain ⟨hname, rfl⟩ := he
    have happly : applyFilter t sub (.call name args) = (do
        usePatternNamed t name
        if args.isEmpty then
          changeFilters fun _ => .empty
        args.forM (removeTarget t)) := by
      unfold applyFilter
      simp only [List.mem_cons, List.not_mem_nil, or_false] at hname
      rcases hname with hname | hname <;>
        · rw [hname]
          rfl
    obtain ⟨s₁, hrun, hrows, hfilters⟩ :=
      (gives_usePatternNamed name).keeps (led_usePatternNamed t name) hs
    rw [happly, run_bind, hrun, removals]
    cases args with
    | nil => exact ⟨_, rfl, hrows, rfl⟩
    | cons target targets =>
      obtain ⟨s₂, hrun₂, hrows₂, hfilters₂⟩ := run_removeTargets (t := t) (target :: targets) hrows
      refine ⟨s₂, hrun₂, hrows₂, ?_⟩
      rw [hfilters₂, hfilters]
      rfl
  | _ => cases he

/-! ## Predicates -/

/-- The change that a predicate stands for: its condition is put under its first column. -/
def filing (t : Target) (rows : List String) (e : Expr) (condition : String) : Change :=
  match e.firstColumn? with
  | some ref =>
    .add ((columnAt t rows ref).table.getD "") (columnAt t rows ref).column condition
  | none => .add "" condition condition

theorem apply_filing (f : FilterContext) (e : Expr) (condition : String) :
    f.apply (filing t rows e condition) =
      f.add (filingPlace t rows e.firstColumn? condition).1
        (filingPlace t rows e.firstColumn? condition).2 condition := by
  unfold filing filingPlace
  cases e.firstColumn? <;> rfl

theorem filing_adds (e : Expr) (condition : String) :
    (filing t rows e condition).added? = some (filedUnder t rows e condition, condition) ∧
      ∀ k, (filing t rows e condition).takesAway k = false := by
  unfold filing filedUnder
  cases e.firstColumn? with
  | none => exact ⟨rfl, fun _ => rfl⟩
  | some ref => exact ⟨rfl, fun _ => rfl⟩

theorem renderExpr_eq_alone (e : Expr) (s : RenderState) :
    (renderExpr t e s).1 = alone t s.filters s.rowTables e :=
  (inStep_renderExpr t e).result_eq ⟨rfl, rfl⟩

theorem applyFilter_of_isPredicate {sub : Expr → Rendering String} {e : Expr}
    (he : e.isPredicate = true) : applyFilter t sub e = addCondition t (sub e) e.firstColumn? := by
  cases e with
  | call name args =>
    simp only [Expr.isPredicate, List.contains_cons, List.contains_nil, Bool.not_eq_true',
      Bool.or_eq_false_iff, beq_eq_false_iff_ne] at he
    obtain ⟨⟨hall, hremove, hexcept, hkeep, -⟩, hfilter⟩ := he
    unfold applyFilter
    dsimp only
    split
    · next heq => exact absurd heq hall
    · next heq => exact absurd heq hremove
    · next heq => exact absurd heq hexcept
    · next heq => exact absurd heq hkeep
    · next heq =>
      split
      · simp [heq] at hfilter
      · rfl
    · rfl
  | _ => unfold applyFilter; rfl

/-- A condition is put to the filters in force if it has SQL under them. -/
theorem run_addCondition (e : Expr) {s : RenderState} {condition : String}
    (h : alone t s.filters s.rowTables e = .ok condition) :
    ∃ s', addCondition t (renderExpr t e) e.firstColumn? s = (.ok (), s') ∧
      s'.rowTables = s.rowTables ∧
      s'.filters = s.filters.apply (filing t s.rowTables e condition) := by
  rw [← renderExpr_eq_alone] at h
  have hled := led_renderExpr t e s
  rcases hrun : renderExpr t e s with ⟨result, s₁⟩
  rw [hrun] at h hled
  obtain rfl : result = .ok condition := h
  obtain ⟨s₂, hled₂, -, hadded⟩ := run_addCondition_of_ok (t := t) hrun e.firstColumn?
  have hrows : s₁.rowTables = s.rowTables := hled.rowTables_eq
  have hfilters : s₂.filters = s.filters := hled₂.filters_eq.trans hled.filters_eq
  refine ⟨_, hadded, hled₂.rowTables_eq.trans hrows, ?_⟩
  rw [hrows, hfilters, apply_filing]

/-- **No key with a condition has been taken away**, in the whole course of rendering. -/
theorem invariant_intact : Invariant t fun s => s.filters.Intact where
  moves h hs := by rwa [h.filters_eq]
  row _ hs := hs
  enter hs := hs
  leave _ _ hs' := hs'
  keep _ hs := hs
  lessen hf _ hs := hf.intact hs
  condition e s hs := by
    cases halone : alone t s.filters s.rowTables e with
    | ok condition =>
      obtain ⟨s', hrun, -, hfilters⟩ := run_addCondition e halone
      rw [hrun, hfilters]
      exact hs.apply _
    | error err =>
      rw [← renderExpr_eq_alone] at halone
      have hled := led_renderExpr t e s
      rcases hrun : renderExpr t e s with ⟨result, s₁⟩
      rw [hrun] at halone hled
      obtain rfl : result = .error err := halone
      rw [run_addCondition_of_error hrun]
      exact hled.filters_eq ▸ hs

/-- **A predicate** is put to the filters in force if it has SQL under them. -/
theorem run_predicate {e : Expr} (he : e.isPredicate = true) {s : RenderState} {condition : String}
    (h : alone t s.filters s.rowTables e = .ok condition) :
    ∃ s', applyFilter t (renderExpr t) e s = (.ok (), s') ∧ s'.rowTables = s.rowTables ∧
      s'.filters = s.filters.apply (filing t s.rowTables e condition) := by
  rw [applyFilter_of_isPredicate he]
  exact run_addCondition e h

theorem exists_alone_of_applyFilter {e : Expr} (he : e.isPredicate = true) {s s' : RenderState}
    (hrun : applyFilter t (renderExpr t) e s = (.ok (), s')) :
    ∃ condition, alone t s.filters s.rowTables e = .ok condition := by
  rw [applyFilter_of_isPredicate he, addCondition] at hrun
  obtain ⟨condition, s₁, hcondition, -⟩ := exists_of_bind hrun
  exact ⟨condition, by rw [← renderExpr_eq_alone, hcondition]⟩

/-! ## The filters of a call -/

/-- Every filter is a predicate or a modifier. -/
def ArePlain (filters : List Expr) : Prop :=
  ∀ e ∈ filters, e.isPredicate = true ∨ e.targets?.isSome = true

instance (filters : List Expr) : Decidable (ArePlain filters) :=
  inferInstanceAs (Decidable (∀ e ∈ filters, _))

/-- **One filter**: what it takes away is no longer in force, and what it adds is. -/
theorem isInForce_of_applyFilter {e : Expr}
    (he : e.isPredicate = true ∨ e.targets?.isSome = true) {s s' : RenderState}
    (hs : s.filters.Intact) (hrun : applyFilter t (renderExpr t) e s = (.ok (), s')) :
    s'.filters.Intact ∧ s'.rowTables = s.rowTables ∧ ∀ k x, s'.filters.IsInForce k x ↔
      s.filters.IsInForce k x ∧ removes t s.rowTables e k = false ∨
        e.isPredicate = true ∧ alone t s.filters s.rowTables e = .ok x ∧
          k = filedUnder t s.rowTables e x := by
  by_cases hpredicate : e.isPredicate = true
  · obtain ⟨condition, halone⟩ := exists_alone_of_applyFilter hpredicate hrun
    obtain ⟨s₁, hrun₁, hrows, hfilters⟩ := run_predicate hpredicate halone
    obtain rfl : s₁ = s' := congrArg Prod.snd (hrun₁.symm.trans hrun)
    refine ⟨hfilters ▸ hs.apply _, hrows, fun k x => ?_⟩
    obtain ⟨hadded, hkept⟩ := @filing_adds t s.rowTables e condition
    rw [hfilters, isInForce_apply hs, hadded, hkept, removes,
      Expr.targets?_of_isPredicate hpredicate, halone]
    simp only [Option.some.injEq, Prod.mk.injEq, Except.ok.injEq, hpredicate, true_and, and_true]
    refine or_congr_right ⟨?_, ?_⟩
    · rintro ⟨rfl, rfl⟩
      exact ⟨rfl, rfl⟩
    · rintro ⟨rfl, rfl⟩
      exact ⟨rfl, rfl⟩
  · obtain ⟨targets, htargets⟩ := Option.isSome_iff_exists.mp (he.resolve_left hpredicate)
    obtain ⟨s₁, hrun₁, hrows, hfilters⟩ := run_modifier (t := t) htargets (s := s) rfl
    obtain rfl : s₁ = s' := congrArg Prod.snd (hrun₁.symm.trans hrun)
    refine ⟨hfilters ▸ hs.foldl _, hrows, fun k x => ?_⟩
    rw [hfilters, isInForce_foldl hs fun _ => added?_of_mem_removals, removes, htargets]
    simp [hpredicate]

/-- The condition is that of a predicate among the filters, under its key, and no filter behind it
takes the key away. -/
def Lasts (t : Target) (filters : List Expr) (s : RenderState) (k x : String) : Prop :=
  ∃ before p after, filters = before ++ p :: after ∧ p.isPredicate = true ∧
    alone t (inside t before s).filters s.rowTables p = .ok x ∧
    k = filedUnder t s.rowTables p x ∧ ∀ e ∈ after, removes t s.rowTables e k = false

theorem lasts_concat (filters : List Expr) (e : Expr) (s : RenderState) (k x : String) :
    Lasts t (filters ++ [e]) s k x ↔
      Lasts t filters s k x ∧ removes t s.rowTables e k = false ∨
        e.isPredicate = true ∧ alone t (inside t filters s).filters s.rowTables e = .ok x ∧
          k = filedUnder t s.rowTables e x := by
  constructor
  · rintro ⟨before, p, after, heq, hp, halone, hkey, hafter⟩
    rcases List.eq_nil_or_concat after with rfl | ⟨after, last, rfl⟩
    · obtain ⟨rfl, hlast⟩ := List.append_inj' heq rfl
      obtain rfl : e = p := List.singleton_inj.mp hlast
      exact .inr ⟨hp, halone, hkey⟩
    · rw [List.concat_eq_append, ← List.cons_append, ← List.append_assoc] at heq
      obtain ⟨rfl, hlast⟩ := List.append_inj' heq rfl
      obtain rfl : e = last := List.singleton_inj.mp hlast
      simp only [List.concat_eq_append, List.forall_mem_append, List.forall_mem_singleton] at hafter
      exact .inl ⟨⟨before, p, after, rfl, hp, halone, hkey, hafter.1⟩, hafter.2⟩
  · rintro (⟨⟨before, p, after, rfl, hp, halone, hkey, hafter⟩, hlast⟩ | ⟨hp, halone, hkey⟩)
    · refine ⟨before, p, after ++ [e], by simp, hp, halone, hkey, ?_⟩
      simpa only [List.forall_mem_append, List.forall_mem_singleton] using ⟨hafter, hlast⟩
    · exact ⟨filters, e, [], rfl, hp, halone, hkey, by simp⟩

theorem applyFilters_concat (sub : Expr → Rendering String) (filters : List Expr) (e : Expr) :
    applyFilters t sub (filters ++ [e]) = (do applyFilters t sub filters; applyFilter t sub e) := by
  induction filters with
  | nil =>
    rw [List.nil_append, applyFilters, applyFilters, applyFilters, pure_bind]
    exact bind_pure _
  | cons first filters ih =>
    rw [List.cons_append, applyFilters, applyFilters, ih, bind_assoc]

/-- **The filters of a call.**  In force are those conditions that were inherited and that no filter
takes away, and those of the predicates that no filter behind them takes away. -/
theorem isInForce_inside {filters : List Expr} (hplain : ArePlain filters) {s s' : RenderState}
    (hs : s.filters.Intact)
    (hrun : applyFilters t (renderExpr t) filters { s with scopes := [] :: s.scopes } =
      (.ok (), s')) :
    s'.filters.Intact ∧ s'.rowTables = s.rowTables ∧
      ∀ k x, (inside t filters s).filters.IsInForce k x ↔
        s.filters.IsInForce k x ∧ (∀ e ∈ filters, removes t s.rowTables e k = false) ∨
          Lasts t filters s k x := by
  have hinside : ∀ {filters : List Expr} {s' : RenderState},
      applyFilters t (renderExpr t) filters { s with scopes := [] :: s.scopes } = (.ok (), s') →
        (inside t filters s).filters = s'.filters := fun hrun => by simp only [inside, hrun]
  -- The last filter acts on what the filters before it have left.
  induction filters using List.reverseRecOn generalizing s' with
  | nil =>
    rw [hinside hrun]
    unfold applyFilters at hrun
    cases hrun
    refine ⟨hs, rfl, fun k x => ⟨fun h => .inl ⟨h, by simp⟩, ?_⟩⟩
    rintro (⟨h, -⟩ | ⟨before, p, after, heq, -⟩)
    · exact h
    · simp at heq
  | append_singleton filters e ih =>
    rw [hinside hrun]
    rw [applyFilters_concat] at hrun
    obtain ⟨_, s₁, hrun₁, hlast⟩ := exists_of_bind hrun
    obtain ⟨hplain, he⟩ := List.forall_mem_append.mp hplain
    obtain ⟨hs₁, hrows₁, hbefore⟩ := ih hplain hrun₁
    obtain ⟨hs', hrows, hstep⟩ := isInForce_of_applyFilter (he e List.mem_cons_self) hs₁ hlast
    refine ⟨hs', hrows.trans hrows₁, fun k x => ?_⟩
    rw [hstep, ← hinside hrun₁, hbefore, hrows₁, lasts_concat, List.forall_mem_append,
      List.forall_mem_singleton, or_and_right, and_assoc, or_assoc]

/-! ## Predicates that are the same under all filters -/

/-- The predicate has the same SQL under all filters. -/
def IsSteady (t : Target) (rows : List String) (p : Expr) : Prop :=
  ∀ filters, alone t filters rows p = .ok (textOf t rows p)

/-- The key under which the condition of a predicate is put. -/
def keyOf (t : Target) (rows : List String) (p : Expr) : String :=
  filedUnder t rows p (textOf t rows p)

/-- **No predicate stands before a modifier that takes it away.** -/
def Guarded (t : Target) (rows : List String) (filters : List Expr) : Prop :=
  filters.Pairwise fun p e => p.isPredicate = true → removes t rows e (keyOf t rows p) = false

instance (t : Target) (rows : List String) (filters : List Expr) :
    Decidable (Guarded t rows filters) :=
  inferInstanceAs (Decidable (filters.Pairwise _))

theorem isSteady_of_gives {p : Expr} {text : String} (h : Gives rows (renderExpr t p) text) :
    IsSteady t rows p := by
  intro filters
  obtain ⟨s', hrun, -⟩ := h { filters := filters, rowTables := rows } rfl
  rw [textOf_eq h, alone, hrun]

theorem exists_gives_bind {α β : Type} {m : Rendering α} {f : α → Rendering β}
    (hm : ∃ a, Gives rows m a) (hf : ∀ a, ∃ b, Gives rows (f a) b) :
    ∃ b, Gives rows (m >>= f) b := by
  obtain ⟨a, ha⟩ := hm
  obtain ⟨b, hb⟩ := hf a
  exact ⟨b, ha.bind hb⟩

theorem exists_gives_renderOperand {sub : Expr → Rendering String} {e : Expr}
    (h : ∃ text, Gives rows (sub e) text) (parent : Nat) (onRight : Bool) :
    ∃ text, Gives rows (renderOperand sub e parent onRight) text :=
  exists_gives_bind h fun _ => ⟨_, .pure _⟩

/-- Columns and literals under operators do not depend on filters. -/
theorem isSteady_of_isOperation {p : Expr} (hp : p.IsOperation) : IsSteady t rows p := by
  suffices h : ∃ text, Gives rows (renderExpr t p) text from isSteady_of_gives h.choose_spec
  induction hp with
  | literal value => exact ⟨_, .pure _⟩
  | column ref => exact ⟨_, (gives_resolveColumn ref).bind (.pure _)⟩
  | unary op he ih =>
    rw [renderExpr_eq]
    cases op with
    | negate => exact exists_gives_bind ih fun _ => ⟨_, .pure _⟩
    | not => exact exists_gives_bind ih fun _ => ⟨_, .pure _⟩
  | @binary l r op hl hr ihl ihr =>
    rw [renderExpr_eq, renderWith, renderBinary]
    split
    · dsimp only
      split
      · exact exists_gives_bind (exists_gives_renderOperand ihl _ _) fun _ => ⟨_, .pure _⟩
      · exact exists_gives_bind (exists_gives_renderOperand ihr _ _) fun _ => ⟨_, .pure _⟩
    · split
      · exact exists_gives_bind ihl fun _ => exists_gives_bind ihr fun _ => ⟨_, .pure _⟩
      · refine exists_gives_bind (exists_gives_renderOperand ihl _ _) fun _ =>
          exists_gives_bind (exists_gives_renderOperand ihr _ _) fun _ => ?_
        split
        · split
          · exact ⟨_, .pure _⟩
          · exact ⟨_, .pure _⟩
        · exact ⟨_, .pure _⟩

section Steady

variable {filters : List Expr} {s : RenderState}

/-- Steady predicates and modifiers can always be put to the filters in force. -/
theorem exists_run_applyFilters (hplain : ArePlain filters)
    (hsteady : ∀ p ∈ filters, p.isPredicate = true → IsSteady t rows p) (hs : s.rowTables = rows) :
    ∃ s', applyFilters t (renderExpr t) filters s = (.ok (), s') := by
  induction filters generalizing s with
  | nil =>
    unfold applyFilters
    exact ⟨s, rfl⟩
  | cons e filters ih =>
    obtain ⟨he, hplain⟩ := List.forall_mem_cons.mp hplain
    obtain ⟨hfirst, hsteady⟩ := List.forall_mem_cons.mp hsteady
    obtain ⟨s₁, hrun, hrows⟩ : ∃ s₁, applyFilter t (renderExpr t) e s = (.ok (), s₁) ∧
        s₁.rowTables = rows := by
      by_cases hpredicate : e.isPredicate = true
      · obtain ⟨s₁, hrun, hrows, -⟩ := run_predicate hpredicate (hs ▸ hfirst hpredicate s.filters)
        exact ⟨s₁, hrun, hrows.trans hs⟩
      · obtain ⟨targets, htargets⟩ := Option.isSome_iff_exists.mp (he.resolve_left hpredicate)
        obtain ⟨s₁, hrun, hrows, -⟩ := run_modifier (t := t) htargets hs
        exact ⟨s₁, hrun, hrows⟩
    obtain ⟨s₂, hrun₂⟩ := ih hplain hsteady hrows
    refine ⟨s₂, ?_⟩
    rw [applyFilters, run_bind, hrun]
    exact hrun₂

/-- What lasts is there in spite of all modifiers behind it. -/
theorem lasts_iff_of_steady
    (hsteady : ∀ p ∈ filters, p.isPredicate = true → IsSteady t s.rowTables p) (k x : String) :
    Lasts t filters s k x ↔ ∃ before p after, filters = before ++ p :: after ∧
      p.isPredicate = true ∧ (k, x) = (keyOf t s.rowTables p, textOf t s.rowTables p) ∧
      ∀ e ∈ after, removes t s.rowTables e k = false := by
  constructor
  · rintro ⟨before, p, after, rfl, hp, halone, rfl, hafter⟩
    have hsame := (hsteady p (by simp) hp _).symm.trans halone
    obtain rfl := Except.ok.inj hsame
    exact ⟨before, p, after, rfl, hp, rfl, hafter⟩
  · rintro ⟨before, p, after, rfl, hp, hpair, hafter⟩
    obtain ⟨rfl, rfl⟩ := Prod.mk.inj hpair
    exact ⟨before, p, after, rfl, hp, hsteady p (by simp) hp _, rfl, hafter⟩

/-- **All predicates last** if none stands before a modifier that takes it away. -/
theorem lasts_iff_of_guarded
    (hsteady : ∀ p ∈ filters, p.isPredicate = true → IsSteady t s.rowTables p)
    (hguarded : Guarded t s.rowTables filters) (k x : String) :
    Lasts t filters s k x ↔ ∃ p ∈ filters, p.isPredicate = true ∧
      (k, x) = (keyOf t s.rowTables p, textOf t s.rowTables p) := by
  rw [lasts_iff_of_steady hsteady]
  constructor
  · rintro ⟨before, p, after, rfl, hp, hpair, -⟩
    exact ⟨p, by simp, hp, hpair⟩
  · rintro ⟨p, hmem, hp, hpair⟩
    obtain ⟨before, after, rfl⟩ := List.append_of_mem hmem
    refine ⟨before, p, after, rfl, hp, hpair, fun e he => ?_⟩
    have htail := List.rel_of_pairwise_cons (List.pairwise_append.mp hguarded).2.1 he hp
    rwa [(Prod.mk.inj hpair).1]

/-- **The filters of a call, none of which takes away a predicate before it**: all its predicates
are in force, and of the inherited conditions those that no filter takes away. -/
theorem isInForce_inside_of_guarded (hplain : ArePlain filters) (hs : s.filters.Intact)
    (hsteady : ∀ p ∈ filters, p.isPredicate = true → IsSteady t s.rowTables p)
    (hguarded : Guarded t s.rowTables filters) (k x : String) :
    (inside t filters s).filters.IsInForce k x ↔
      s.filters.IsInForce k x ∧ (∀ e ∈ filters, removes t s.rowTables e k = false) ∨
        ∃ p ∈ filters, p.isPredicate = true ∧
          (k, x) = (keyOf t s.rowTables p, textOf t s.rowTables p) := by
  obtain ⟨s', hrun⟩ := exists_run_applyFilters hplain hsteady
    (s := { s with scopes := [] :: s.scopes }) rfl
  rw [(isInForce_inside hplain hs hrun).2.2, lasts_iff_of_guarded hsteady hguarded]

/-- **The order of the filters plays no part** as long as no predicate stands before a modifier that
takes it away. -/
theorem isInForce_inside_perm {filters' : List Expr} (hperm : filters.Perm filters')
    (hplain : ArePlain filters) (hs : s.filters.Intact)
    (hsteady : ∀ p ∈ filters, p.isPredicate = true → IsSteady t s.rowTables p)
    (hguarded : Guarded t s.rowTables filters) (hguarded' : Guarded t s.rowTables filters')
    (k x : String) :
    (inside t filters' s).filters.IsInForce k x ↔ (inside t filters s).filters.IsInForce k x := by
  rw [isInForce_inside_of_guarded hplain hs hsteady hguarded,
    isInForce_inside_of_guarded (fun e he => hplain e (hperm.mem_iff.mpr he)) hs
      (fun p hp => hsteady p (hperm.mem_iff.mpr hp)) hguarded']
  simp only [hperm.mem_iff]

/-- Predicates take nothing away. -/
theorem removes_of_isPredicate {e : Expr} (he : e.isPredicate = true) (k : String) :
    removes t rows e k = false := by
  rw [removes, Expr.targets?_of_isPredicate he]

/-- With the modifiers first, no predicate stands before one. -/
theorem guarded_modifiers_predicates (filters : List Expr) :
    Guarded t rows (filters.filter (!·.isPredicate) ++ filters.filter (·.isPredicate)) := by
  refine List.pairwise_append.mpr ⟨?_, ?_, ?_⟩
  · refine List.pairwise_of_forall_mem_list fun p hp e _ hpredicate => ?_
    simp [hpredicate] at hp
  · refine List.pairwise_of_forall_mem_list fun p _ e he _ => ?_
    exact removes_of_isPredicate (List.mem_filter.mp he).2 _
  · intro p hp e _ hpredicate
    simp [hpredicate] at hp

/-- With the modifiers last, no condition lasts that one of them takes away. -/
theorem not_lasts_predicates_modifiers {e : Expr} (he : e ∈ filters) {k : String}
    (hremoves : removes t s.rowTables e k = true) (x : String) :
    ¬Lasts t (filters.filter (·.isPredicate) ++ filters.filter (!·.isPredicate)) s k x := by
  have hmodifier : e.isPredicate = false := by
    by_contra hpredicate
    rw [removes_of_isPredicate (by simpa using hpredicate)] at hremoves
    cases hremoves
  have hmem : e ∈ filters.filter (!·.isPredicate) := by simp [he, hmodifier]
  rintro ⟨before, p, after, heq, hp, -, -, hafter⟩
  have hearly : p ∉ filters.filter (!·.isPredicate) := by simp [hp]
  have hlate : e ∈ after := by
    rcases List.append_eq_append_iff.mp heq with ⟨between, -, hrest⟩ | ⟨between, -, hrest⟩
    · exact absurd (hrest ▸ by simp) hearly
    · cases between with
      | nil => exact absurd (by rw [← List.nil_append (filters.filter _), ← hrest]; simp) hearly
      | cons head between =>
        obtain ⟨-, rfl⟩ := List.cons.inj hrest
        exact List.mem_append_right _ hmem
  rw [hafter e hlate] at hremoves
  cases hremoves

/-- **When the order of the filters plays no part**: exactly if no modifier among them takes away
one of the predicates. -/
theorem isInForce_inside_perm_iff (hplain : ArePlain filters) (hs : s.filters.Intact)
    (hsteady : ∀ p ∈ filters, p.isPredicate = true → IsSteady t s.rowTables p) :
    (∀ filters', filters.Perm filters' → ∀ k x, (inside t filters' s).filters.IsInForce k x ↔
        (inside t filters s).filters.IsInForce k x) ↔
      ∀ p ∈ filters, p.isPredicate = true → ∀ e ∈ filters,
        removes t s.rowTables e (keyOf t s.rowTables p) = false := by
  constructor
  · intro hsame p hp hpredicate e he
    by_contra hremoves
    have hremoves : removes t s.rowTables e (keyOf t s.rowTables p) = true := by
      simpa using hremoves
    -- The predicate is in force if the modifiers come first, and not if they come last.
    have hlast : (filters.filter (·.isPredicate) ++ filters.filter (!·.isPredicate)).Perm filters :=
      List.filter_append_perm _ _
    have hfirst := List.perm_append_comm.trans hlast
    have hplain' : ∀ {filters' : List Expr}, filters'.Perm filters → ArePlain filters' :=
      fun hperm e he => hplain e (hperm.mem_iff.mp he)
    have hsteady' : ∀ {filters' : List Expr}, filters'.Perm filters → ∀ p ∈ filters',
        p.isPredicate = true → IsSteady t s.rowTables p :=
      fun hperm p hp => hsteady p (hperm.mem_iff.mp hp)
    have hheld := (isInForce_inside_of_guarded (hplain' hfirst) hs (hsteady' hfirst)
      (guarded_modifiers_predicates filters) (keyOf t s.rowTables p) (textOf t s.rowTables p)).mpr
        (.inr ⟨p, hfirst.mem_iff.mpr hp, hpredicate, rfl⟩)
    obtain ⟨s', hrun⟩ := exists_run_applyFilters (hplain' hlast) (hsteady' hlast)
      (s := { s with scopes := [] :: s.scopes }) rfl
    have hlost := (isInForce_inside (hplain' hlast) hs hrun).2.2 (keyOf t s.rowTables p)
      (textOf t s.rowTables p)
    rcases hlost.mp ((hsame _ hlast.symm _ _).mpr ((hsame _ hfirst.symm _ _).mp hheld)) with
      ⟨-, hnone⟩ | hlasts
    · exact absurd (hnone e (hlast.mem_iff.mpr he)) (by simp [hremoves])
    · exact not_lasts_predicates_modifiers he hremoves _ hlasts
  · intro hnone filters' hperm
    refine isInForce_inside_perm hperm hplain hs hsteady ?_ ?_
    · exact List.pairwise_of_forall_mem_list fun p hp e he hpredicate => hnone p hp hpredicate e he
    · exact List.pairwise_of_forall_mem_list fun p hp e he hpredicate =>
        hnone p (hperm.mem_iff.mpr hp) hpredicate e (hperm.mem_iff.mpr he)

end Steady

end Rendering

/-! ## Queries -/

namespace Rendering

variable {t : Target}

/-- In a subquery that has SQL, the filters were put to those in force. -/
theorem exists_applied_of_subquery {name : String} {filters : List Expr} {expression : Expr}
    {s s' : RenderState} {sql : String}
    (hrun : subquery t name (applyFilters t (renderExpr t) filters) (renderExpr t expression) s =
      (.ok sql, s')) :
    ∃ s₁, applyFilters t (renderExpr t) filters { s with scopes := [] :: s.scopes } =
      (.ok (), s₁) := by
  rw [subquery] at hrun
  obtain ⟨⟨text, tables, conditions⟩, s₀, hinside, -⟩ := exists_of_bind hrun
  obtain ⟨s₁, -, -, happlied, -⟩ := exists_of_underFilters (led_renderExpr t expression) hinside
  exact ⟨s₁, happlied⟩

end Rendering

namespace Engine

open Rendering

/-- **The conditions of the subqueries of a query.**  In the course of every query, let a call with
filters have predicates and modifiers only.  Its `WHERE` clause has the conditions that are in force
inside it: the inherited ones that no modifier of the call takes away, and those of its own
predicates that no modifier behind them takes away.  Predicates that are the same under all filters
are all in force if none stands before a modifier that takes it away, and the orders in which this
is so have the same conditions in force; all orders have the same ones exactly if no modifier of the
call takes away one of its predicates. -/
theorem conditions_of_query (e : Engine) {dax : String} {q : Query} (hquery : e.query dax = .ok q)
    (hsuccess : q.success = true) {c : Expr} {s : RenderState}
    (hcourse : Course e.target ((parseSource dax).tree, {}) (c, s)) {name : String}
    {expression : Expr} {filters : List Expr}
    (hcall : asSubquery c = some (name, expression, filters)) (hplain : ArePlain filters) :
    let t := e.target
    let rows := s.rowTables
    let conditions (filters : List Expr) (k x : String) :=
      (inside t filters s).filters.IsInForce k x
    (∃ sql text, (renderExpr t c s).1 = .ok sql ∧
      (renderExpr t expression (inside t filters s)).1 = .ok text ∧
      (sql = text ∧ t.filterTables (inside t filters s).filters = [] ∨ ∃ source,
        selectText t name text source (inside t filters s).filters = .ok sql)) ∧
    (∀ k x, conditions filters k x ↔
      s.filters.IsInForce k x ∧ (∀ f ∈ filters, removes t rows f k = false) ∨
        Lasts t filters s k x) ∧
    ((∀ p ∈ filters, p.isPredicate = true → IsSteady t rows p) →
      (Guarded t rows filters →
        (∀ p ∈ filters, p.isPredicate = true →
          conditions filters (keyOf t rows p) (textOf t rows p)) ∧
        ∀ filters', filters.Perm filters' → Guarded t rows filters' →
          ∀ k x, conditions filters' k x ↔ conditions filters k x) ∧
      ((∀ filters', filters.Perm filters' →
          ∀ k x, conditions filters' k x ↔ conditions filters k x) ↔
        ∀ p ∈ filters, p.isPredicate = true →
          ∀ f ∈ filters, removes t rows f (keyOf t rows p) = false)) := by
  intro t rows conditions
  have hs : s.filters.Intact := hcourse.invariant invariant_intact FilterContext.intact_empty
  obtain ⟨sql₀, s₀, hdraft, -, -⟩ := exists_state_of_query hquery hsuccess
  obtain ⟨-, hok⟩ := hcourse.later (Nat.zero_le _)
  rw [hdraft] at hok
  rcases hrun : renderExpr t c s with ⟨err | sql, s'⟩
  · rw [hrun] at hok
    exact nomatch hok rfl
  · rw [renderExpr_eq_subquery hcall] at hrun
    obtain ⟨text, s₂, hexpressed, -, -, hrest⟩ := exists_source_of_subquery hrun
    obtain ⟨s₁, happlied⟩ := exists_applied_of_subquery hrun
    refine ⟨⟨sql, text, rfl, by rw [hexpressed], hrest.imp ?_ ?_⟩,
      (isInForce_inside hplain hs happlied).2.2, fun hsteady => ⟨fun hguarded => ⟨?_, ?_⟩,
        isInForce_inside_perm_iff hplain hs hsteady⟩⟩
    · rintro ⟨hsql, hnone⟩
      refine ⟨hsql, List.eq_nil_iff_forall_not_mem.mpr fun table htable => ?_⟩
      have hmem := mem_foldl_addNew.mpr (.inr htable : table ∈ s₂.scopes.headD [] ∨ _)
      rw [hnone] at hmem
      cases hmem
    · rintro ⟨source, -, -, -, -, -, -, -, hselect⟩
      exact ⟨source, hselect⟩
    · intro p hp hpredicate
      exact (isInForce_inside_of_guarded hplain hs hsteady hguarded _ _).mpr
        (.inr ⟨p, hp, hpredicate, rfl⟩)
    · intro filters' hperm hguarded'
      exact isInForce_inside_perm hperm hplain hs hsteady hguarded hguarded'

/-- The sales in the west, of all stores: the region stands behind the modifier and is in force.
With the modifier behind it, it would not be. -/
theorem conditions_west_of_all_stores :
    let e : Engine := { schema := some .retail }
    let dax := "CALCULATE(SUM(Sales[Amount]), ALL(Store), Store[Region] = \"West\")"
    ∃ expression filters,
      asSubquery (parseSource dax).tree = some ("CALCULATE", expression, filters) ∧
      (inside e.target filters {}).filters.IsInForce
        "DIM_STORE.REGION" "dim_store.region = 'West'" ∧
      ¬∀ filters', filters.Perm filters' → ∀ k x,
        (inside e.target filters' {}).filters.IsInForce k x ↔
          (inside e.target filters {}).filters.IsInForce k x := by
  intro e dax
  have hview : ((e.query dax).toOption.map fun q => q.success) = some true := by
    dsimp only [e, dax]
    rw [PatternLibrary.builtin_eq]
    decide +kernel
  -- both at once, since the kernel then reads the text only once
  have evaluated :
      ((asSubquery (parseSource dax).tree).map fun call => (call.1,
        decide (ArePlain call.2.2 ∧ ∀ p ∈ call.2.2, p.isPredicate = true → p.IsOperation),
        decide (Guarded e.target [] call.2.2))) = some ("CALCULATE", true, true) ∧
      ((asSubquery (parseSource dax).tree).map fun call =>
        ((call.2.2.filter (·.isPredicate)).map fun p =>
            (keyOf e.target [] p, textOf e.target [] p),
          call.2.2.any (removes e.target [] · "DIM_STORE.REGION"))) =
        some ([("DIM_STORE.REGION", "dim_store.region = 'West'")], true) := by
    decide +kernel
  obtain ⟨hshapes, hkeys⟩ := evaluated
  obtain ⟨q, hq, hs⟩ := exists_of_map_toOption hview
  obtain ⟨⟨name, expression, filters⟩, hcall, hshapes⟩ := Option.map_eq_some_iff.mp hshapes
  rw [hcall, Option.map_some, Option.some.injEq] at hkeys
  simp only [Prod.mk.injEq, decide_eq_true_eq, List.any_eq_true] at hshapes hkeys
  obtain ⟨rfl, ⟨hplain, hoperations⟩, hguarded⟩ := hshapes
  obtain ⟨hpredicates, f, hf, hremoves⟩ := hkeys
  have hown : ("DIM_STORE.REGION", "dim_store.region = 'West'") ∈
      (filters.filter (·.isPredicate)).map fun p =>
        (keyOf e.target [] p, textOf e.target [] p) := by
    rw [hpredicates]
    exact List.mem_singleton_self _
  obtain ⟨p, hmem, hp⟩ := List.mem_map.mp hown
  obtain ⟨hmem, hpredicate⟩ := List.mem_filter.mp hmem
  obtain ⟨hkey, htext⟩ := Prod.mk.inj hp
  obtain ⟨-, -, hrest⟩ := conditions_of_query e hq hs .refl hcall hplain
  obtain ⟨hkept, hall⟩ := hrest fun p hp h => isSteady_of_isOperation (hoperations p hp h)
  refine ⟨expression, filters, hcall, ?_, fun hsame => ?_⟩
  · have hheld := (hkept hguarded).1 p hmem hpredicate
    rwa [hkey, htext] at hheld
  · have hnone := hall.mp hsame p hmem hpredicate f hf
    rw [hkey, hremoves] at hnone
    cases hnone

/-- Behind the region the modifier takes it away. -/
example :
    let t : Target := ⟨some .retail, .builtin, .snowflake⟩
    let region : Expr :=
      .binary (.column ⟨some "Store", "Region"⟩) .equals (.literal (.string "West"))
    let sales : Expr := .call "CALCULATE" [.call "SUM" [.column ⟨some "Sales", "Amount"⟩], region,
      .call "ALL" [.table "Store"]]
    (renderExpr t sales {}).1.toOption = some "(SELECT SUM(sales.amount) FROM sales)" := by
  dsimp only
  rw [PatternLibrary.builtin_eq]
  decide +kernel

end Engine

end MeasureSql
