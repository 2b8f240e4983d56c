import Mathlib.Logic.Relation
import MeasureSql.Proofs.Render.Levels
import MeasureSql.Proofs.Render.Parts

/-!
# The course of rendering

In the course of rendering an expression its parts are rendered, each from some state, and in their
course the parts of these.  Which parts, and from which states, is a matter of the rules; but
rendering comes to a part in a state exactly if its outcome depends on what is made of the part
there.  What every step of a rule keeps holds in every state that rendering comes to, and what a
part has left behind is still there at the end of the whole.

The outcome is the SQL or the error.  An iterator whose value has failed still renders the condition
on its rows, in whatever state the error was found, but nothing that this may give can show in the
outcome any more: it is not part of the course.

## Main definitions

* `ComesTo`, `Course` — the parts that rendering comes to, with their states.
* `Invariant` — what every step of a rule keeps.
* `Later` — what does not get lost.

## Main results

* `Course.invariant` — an invariant holds in every state of the course.
* `Course.later` — what a part has left behind is there at the end, and a part that fails makes the
  whole fail.
-/

namespace MeasureSql.Rendering

open Dax

/-- Rendering an expression from a state **comes to a part in a state**: its SQL or its error
depends on what is made of the part there. -/
def ComesTo (t : Target) (x y : Expr × RenderState) : Prop :=
  ∃ sub : Expr → Rendering String, (∀ e s, (e, s) ≠ y → sub e s = renderExpr t e s) ∧
    (renderWith t sub x.1 x.2).1 ≠ (renderExpr t x.1 x.2).1

/-- The course of rendering: the expression itself, its parts, and so on. -/
abbrev Course (t : Target) : Expr × RenderState → Expr × RenderState → Prop :=
  Relation.ReflTransGen (ComesTo t)

variable {t : Target} {x y : Expr × RenderState}

/-- Rendering comes to a part if it fails whenever the part does, and with the same error. -/
theorem comesTo_of_fails {e c : Expr} {s u : RenderState}
    (h : ∀ sub err, (∀ e' s', (e', s') ≠ (c, u) → sub e' s' = renderExpr t e' s') →
      sub c u = (.error err, u) → (renderWith t sub e s).1 = .error err) :
    ComesTo t (e, s) (c, u) := by
  classical
  -- A part that fails with an error that the whole did not have makes a difference.
  obtain ⟨err, herr⟩ : ∃ err : TemplateError, (renderExpr t e s).1 ≠ .error err := by
    by_cases hone : (renderExpr t e s).1 = .error (.unbound "" "")
    · refine ⟨.unbound "" "other", fun hother => ?_⟩
      have hsame := Except.error.inj (hone.symm.trans hother)
      exact absurd hsame (by decide)
    · exact ⟨.unbound "" "", hone⟩
  refine ⟨fun e' s' => if (e', s') = (c, u) then (.error err, u) else renderExpr t e' s',
    fun e' s' hne => if_neg hne, ?_⟩
  show (renderWith t _ e s).1 ≠ (renderExpr t e s).1
  rw [h _ err (fun e' s' hne => if_neg hne) (if_pos rfl)]
  exact herr.symm

/-! ## Invariants -/

/-- What every step of a rule keeps. -/
structure Invariant (t : Target) (P : RenderState → Prop) : Prop where
  moves {loose : Bool} {s s' : RenderState} (h : Leads false loose s s') (hs : P s) : P s'
  row {s : RenderState} (rows : List String) (hs : P s) : P { s with rowTables := rows }
  enter {s : RenderState} (hs : P s) : P { s with scopes := [] :: s.scopes }
  leave {loose : Bool} {s s' : RenderState}
    (h : Leads true loose { s with scopes := [] :: s.scopes } s') (hs : P s) (hs' : P s') :
    P { s' with scopes := s'.scopes.tail }
  keep {loose : Bool} {s s' : RenderState} (h : Leads true loose s s') (hs : P s) :
    P { s' with filters := s.filters }
  lessen {f : FilterContext → FilterContext} (hf : Lessens f) {s : RenderState} (hs : P s) :
    P { s with filters := f s.filters }
  condition (e : Expr) {s : RenderState} (hs : P s) :
    P (addCondition t (renderExpr t e) e.firstColumn? s).2

/-- The computations do the same from every state with the property, and keep it. -/
def KeepsAlike (P : RenderState → Prop) (α : Type) (m m' : Rendering α) : Prop :=
  Led true m ∧ ∀ s, P s → m s = m' s ∧ P (m s).2

section Invariant

variable {P : RenderState → Prop} {sub : Expr → Rendering String}

theorem KeepsAlike.bind {α β : Type} {m m' : Rendering α} {f f' : α → Rendering β}
    (hm : KeepsAlike P α m m') (hf : ∀ a, KeepsAlike P β (f a) (f' a)) :
    KeepsAlike P β (m >>= f) (m' >>= f') := by
  refine ⟨Led.bind hm.1 fun a => (hf a).1, fun s hs => ?_⟩
  obtain ⟨hsame, hkept⟩ := hm.2 s hs
  rw [run_bind, run_bind, ← hsame]
  generalize m s = run at hkept
  rcases run with ⟨err | a, s'⟩
  · exact ⟨rfl, hkept⟩
  · exact (hf a).2 s' hkept

theorem respected_keepsAlike (h : Invariant t P)
    (hsub : ∀ e s, P s → renderExpr t e s = sub e s) :
    Respected t (renderExpr t) sub (KeepsAlike P) where
  part e := ⟨(led_renderExpr t e).relax,
    fun s hs => ⟨hsub e s hs, h.moves (led_renderExpr t e s) hs⟩⟩
  aside hled _ := ⟨hled.relax, fun s hs => ⟨rfl, h.moves (hled s) hs⟩⟩
  bind := .bind
  lessen hf := ⟨led_changeFilters _, fun s hs => ⟨rfl, h.lessen hf hs⟩⟩
  condition {m m'} e hm hsame := by
    obtain rfl : m = renderExpr t e := by
      rcases hm with ⟨hm, -⟩ | ⟨hm, -⟩
      · exact hm
      · rw [hm, ← renderExpr_eq]
    refine ⟨led_addCondition hsame.1 _, fun s hs => ⟨?_, h.condition e hs⟩⟩
    rw [addCondition, addCondition, run_bind, run_bind, (hsame.2 s hs).1]
  withRow row act act' hact := by
    refine ⟨hact.1.withRow row, fun s hs => ?_⟩
    cases row with
    | none =>
      rw [withRow_none, withRow_none]
      exact hact.2 s hs
    | some name =>
      obtain ⟨hsame, hkept⟩ := hact.2 _ (h.row (s.rowTables ++ [name]) hs)
      rw [run_withRow, run_withRow, ← hsame]
      exact ⟨rfl, h.row _ hkept⟩
  alongRow row act act' hact := by
    refine ⟨hact.1.alongRow row, fun s hs => ?_⟩
    cases row with
    | none =>
      rw [alongRow_none, alongRow_none]
      exact hact.2 s hs
    | some name =>
      obtain ⟨hsame, hkept⟩ := hact.2 _ (h.row (s.rowTables ++ [name]) hs)
      rw [run_alongRow, run_alongRow, ← hsame]
      generalize act { s with rowTables := s.rowTables ++ [name] } = run at hkept
      rcases run with ⟨err | a, s'⟩
      · exact ⟨rfl, hkept⟩
      · exact ⟨rfl, h.row _ hkept⟩
  inTurn {_ _ m m' n n'} hm hn := by
    refine ⟨hm.1.inTurn hn.1, fun s hs => ?_⟩
    obtain ⟨hsame, hkept⟩ := hm.2 s hs
    obtain ⟨hsame', hkept'⟩ := hn.2 (m s).2 hkept
    rw [run_inTurn, run_inTurn, ← hsame, ← hsame']
    exact ⟨rfl, hkept'⟩
  withScope hact := by
    refine ⟨hact.1.withScope, fun s hs => ?_⟩
    obtain ⟨hsame, hkept⟩ := hact.2 _ (h.enter hs)
    refine ⟨?_, h.leave (hact.1 _) hs hkept⟩
    simp only [withScope, hsame]
  keepingFilters hact := by
    refine ⟨hact.1.keepingFilters.relax, fun s hs => ?_⟩
    refine ⟨?_, h.keep (hact.1 s) hs⟩
    simp only [keepingFilters, (hact.2 s hs).1]

/-- **An invariant holds where rendering comes to.** -/
theorem ComesTo.invariant (h : Invariant t P) (hcomes : ComesTo t x y) (hx : P x.2) : P y.2 := by
  obtain ⟨sub, hsub, hdiffers⟩ := hcomes
  by_contra hy
  have hsame : ∀ e s, P s → renderExpr t e s = sub e s := fun e s hs =>
    (hsub e s fun heq => hy (heq ▸ hs)).symm
  rw [renderExpr_eq] at hdiffers
  have halike := (((respected_keepsAlike h hsame).renderWith x.1).2 x.2 hx).1
  exact hdiffers (congrArg Prod.fst halike.symm)

theorem Course.invariant (h : Invariant t P) (hcourse : Course t x y) (hx : P x.2) : P y.2 := by
  induction hcourse with
  | refl => exact hx
  | tail _ hcomes ih => exact hcomes.invariant h ih

/-- Filters are put to those in force without breaking an invariant. -/
theorem Invariant.applyFilters (h : Invariant t P) (filters : List Expr) {s : RenderState}
    (hs : P s) : P (applyFilters t (renderExpr t) filters s).2 :=
  (((respected_keepsAlike h fun _ _ _ => rfl).applyFilters filters).2 s hs).2

end Invariant

/-- The queries around are as many as at the beginning, or more. -/
theorem invariant_depth (depth : Nat) : Invariant t fun s => depth ≤ s.scopes.length where
  moves h hs := by rwa [h.held.depth]
  row _ hs := hs
  enter hs := Nat.le_succ_of_le hs
  leave h hs _ := by
    have houter := h.held.outer
    simp only [List.tail_cons] at houter
    rwa [houter]
  keep h hs := by
    show depth ≤ _
    rwa [h.held.depth]
  lessen _ _ hs := hs
  condition e s hs := by
    have hled := led_addCondition (t := t) (led_renderExpr t e).relax e.firstColumn?
    rwa [(hled s).held.depth]

/-! ## What is left behind -/

/-- The tables that a query reads, counted from the outermost one. -/
def frame (depth : Nat) (scopes : List (List String)) : List String :=
  (scopes.drop (scopes.length - depth)).headD []

theorem frame_cons {depth : Nat} {scope : List String} {scopes : List (List String)}
    (h : depth ≤ scopes.length) : frame depth (scope :: scopes) = frame depth scopes := by
  rw [frame, frame, List.length_cons, Nat.succ_sub h, List.drop_succ_cons]

theorem frame_length (scopes : List (List String)) :
    frame scopes.length scopes = scopes.headD [] := by
  rw [frame, Nat.sub_self, List.drop_zero]

/-- Confidence has not risen, and what a query read it still reads. -/
structure Later (depth : Nat) (s s' : RenderState) : Prop where
  confidence : s'.confidence.rank ≤ s.confidence.rank
  tables : frame depth s.scopes ⊆ frame depth s'.scopes

namespace Later

variable {depth : Nat} {s s' s'' : RenderState}

theorem refl (s : RenderState) : Later depth s s :=
  ⟨Nat.le_refl _, List.Subset.refl _⟩

theorem trans (h : Later depth s s') (h' : Later depth s' s'') : Later depth s s'' :=
  ⟨Nat.le_trans h'.confidence h.confidence, List.Subset.trans h.tables h'.tables⟩

/-- The end of a query loses nothing of those around it. -/
theorem leave (h : Later depth s s') (hdepth : depth < s'.scopes.length) :
    Later depth s { s' with scopes := s'.scopes.tail } := by
  refine ⟨h.confidence, ?_⟩
  have htables := h.tables
  obtain ⟨scope, outer, heq⟩ := List.exists_cons_of_length_pos (Nat.zero_lt_of_lt hdepth)
  rw [heq, List.length_cons] at hdepth
  rw [heq, frame_cons (Nat.le_of_lt_succ hdepth)] at htables
  show frame depth s.scopes ⊆ frame depth s'.scopes.tail
  rwa [heq]

end Later

/-- Moves lose nothing of the queries around. -/
theorem Held.later {depth : Nat} {s s' : RenderState} (h : Held s s')
    (hdepth : depth ≤ s.scopes.length) : Later depth s s' := by
  refine ⟨h.confidence, ?_⟩
  have hlength := h.depth
  have houter := h.outer
  have htop := h.top
  generalize s.scopes = scopes at *
  generalize s'.scopes = scopes' at *
  rcases scopes with _ | ⟨scope, outer⟩
  · rw [List.length_eq_zero_iff.mp hlength]
    exact List.Subset.refl _
  · rcases scopes' with _ | ⟨scope', outer'⟩
    · cases hlength
    · obtain rfl : outer' = outer := houter
      rcases Nat.lt_or_eq_of_le hdepth with hlt | rfl
      · rw [frame_cons (Nat.le_of_lt_succ hlt), frame_cons (Nat.le_of_lt_succ hlt)]
        exact List.Subset.refl _
      · have hlengths : (scope :: outer').length = (scope' :: outer').length := rfl
        rw [frame_length, hlengths, frame_length]
        exact htop.extended.subset

/-- The computations do the same, or what was there in some state is still there after the first,
which fails if it has to. -/
def LaterOrAlike (depth : Nat) (u : RenderState) (fails : Prop) (α : Type) (m m' : Rendering α) :
    Prop :=
  Led true m ∧ ∀ s, depth ≤ s.scopes.length →
    m s = m' s ∨ (Later depth u (m s).2 ∧ (fails → (m s).1.isOk = false))

section Later

variable {depth : Nat} {u : RenderState} {fails : Prop} {sub : Expr → Rendering String}

theorem LaterOrAlike.of_led {α : Type} {m : Rendering α} (h : Led true m) :
    LaterOrAlike depth u fails α m m :=
  ⟨h, fun _ _ => .inl rfl⟩

theorem LaterOrAlike.bind {α β : Type} {m m' : Rendering α} {f f' : α → Rendering β}
    (hm : LaterOrAlike depth u fails α m m') (hf : ∀ a, LaterOrAlike depth u fails β (f a) (f' a)) :
    LaterOrAlike depth u fails β (m >>= f) (m' >>= f') := by
  refine ⟨Led.bind hm.1 fun a => (hf a).1, fun s hs => ?_⟩
  have hheld := (hm.1 s).held
  rw [run_bind, run_bind]
  rcases hm.2 s hs with hsame | ⟨hlater, hfails⟩
  · rw [← hsame]
    generalize m s = run at hheld
    rcases run with ⟨err | a, s'⟩
    · exact .inl rfl
    · exact (hf a).2 s' (hheld.depth ▸ hs)
  · right
    generalize m s = run at hheld hlater hfails
    rcases run with ⟨err | a, s'⟩
    · exact ⟨hlater, fun _ => rfl⟩
    · have hrest := ((hf a).1 s').held.later (hheld.depth ▸ hs : depth ≤ s'.scopes.length)
      exact ⟨hlater.trans hrest, fun h => nomatch hfails h⟩

theorem respected_laterOrAlike
    (hsub : ∀ e, LaterOrAlike depth u fails String (renderExpr t e) (sub e)) :
    Respected t (renderExpr t) sub (LaterOrAlike depth u fails) where
  part := hsub
  aside hled _ := .of_led hled.relax
  bind := .bind
  lessen _ := .of_led (led_changeFilters _)
  condition e _ h := by
    rw [addCondition_eq, addCondition_eq]
    exact h.bind fun condition => .of_led (led_fileCondition e.firstColumn? condition)
  withRow row act act' hact := by
    refine ⟨hact.1.withRow row, fun s hs => ?_⟩
    cases row with
    | none =>
      rw [withRow_none, withRow_none]
      exact hact.2 s hs
    | some name =>
      rw [run_withRow, run_withRow]
      rcases hact.2 { s with rowTables := s.rowTables ++ [name] } hs with hsame | hlater
      · exact .inl (by rw [hsame])
      · exact .inr ⟨⟨hlater.1.confidence, hlater.1.tables⟩, hlater.2⟩
  alongRow row act act' hact := by
    refine ⟨hact.1.alongRow row, fun s hs => ?_⟩
    cases row with
    | none =>
      rw [alongRow_none, alongRow_none]
      exact hact.2 s hs
    | some name =>
      rw [run_alongRow, run_alongRow]
      rcases hact.2 { s with rowTables := s.rowTables ++ [name] } hs with hsame | hlater
      · exact .inl (by rw [hsame])
      · generalize act { s with rowTables := s.rowTables ++ [name] } = run at hlater
        rcases run with ⟨err | a, s'⟩
        · exact .inr hlater
        · exact .inr ⟨⟨hlater.1.confidence, hlater.1.tables⟩, hlater.2⟩
  inTurn {_ _ m m' n n'} hm hn := by
    refine ⟨hm.1.inTurn hn.1, fun s hs => ?_⟩
    have hdepth : depth ≤ (m s).2.scopes.length := (hm.1 s).held.depth ▸ hs
    rcases hm.2 s hs with hsame | ⟨hlater, hfails⟩
    · rcases hn.2 (m s).2 hdepth with hsame' | ⟨hlater', hfails'⟩
      · exact .inl (by rw [run_inTurn, run_inTurn, ← hsame, ← hsame'])
      · right
        rw [isOk_inTurn, run_inTurn]
        exact ⟨hlater', fun h => by rw [hfails' h, Bool.and_false]⟩
    · right
      rw [isOk_inTurn, run_inTurn]
      exact ⟨hlater.trans ((hn.1 _).held.later hdepth), fun h => by rw [hfails h, Bool.false_and]⟩
  withScope {α act act'} hact := by
    refine ⟨hact.1.withScope, fun s hs => ?_⟩
    have hdepth := (hact.1 { s with scopes := [] :: s.scopes }).held.depth
    rcases hact.2 { s with scopes := [] :: s.scopes } (Nat.le_succ_of_le hs) with
      hsame | ⟨hlater, hfails⟩
    · left
      simp only [withScope, hsame]
    · right
      simp only [withScope]
      generalize act { s with scopes := [] :: s.scopes } = run at hdepth hlater hfails
      rcases run with ⟨result, s'⟩
      refine ⟨hlater.leave (hdepth ▸ Nat.lt_succ_of_le hs), fun h => ?_⟩
      cases result with
      | error err => rfl
      | ok a => cases hfails h
  keepingFilters hact := by
    refine ⟨hact.1.keepingFilters.relax, fun s hs => ?_⟩
    rcases hact.2 s hs with hsame | hlater
    · left
      simp only [keepingFilters, hsame]
    · exact .inr ⟨⟨hlater.1.confidence, hlater.1.tables⟩, hlater.2⟩

end Later

/-- **What a part has left behind is there at the end of the whole**, and a part that fails makes
the whole fail. -/
theorem ComesTo.later (h : ComesTo t x y) {depth : Nat} (hdepth : depth ≤ x.2.scopes.length) :
    Later depth (renderExpr t y.1 y.2).2 (renderExpr t x.1 x.2).2 ∧
      ((renderExpr t x.1 x.2).1.isOk = true → (renderExpr t y.1 y.2).1.isOk = true) := by
  obtain ⟨sub, hsub, hdiffers⟩ := h
  let fails : Prop := (renderExpr t y.1 y.2).1.isOk = false
  have hparts : ∀ e, LaterOrAlike depth (renderExpr t y.1 y.2).2 fails String (renderExpr t e)
      (sub e) := fun e => by
    refine ⟨(led_renderExpr t e).relax, fun s _ => ?_⟩
    by_cases heq : (e, s) = y
    · subst heq
      exact .inr ⟨.refl _, id⟩
    · exact .inl (hsub e s heq).symm
  rw [renderExpr_eq t x.1] at hdiffers ⊢
  obtain hsame | ⟨hlater, hfails⟩ :=
    ((respected_laterOrAlike hparts).renderWith x.1).2 x.2 hdepth
  · exact absurd (congrArg Prod.fst hsame.symm) hdiffers
  · refine ⟨hlater, fun hok => ?_⟩
    cases hy : (renderExpr t y.1 y.2).1.isOk with
    | true => rfl
    | false => exact absurd hok (by simp [hfails hy])

theorem Course.depth_le (h : Course t x y) : x.2.scopes.length ≤ y.2.scopes.length :=
  h.invariant (invariant_depth x.2.scopes.length) (Nat.le_refl _)

theorem Course.later (h : Course t x y) {depth : Nat} (hdepth : depth ≤ x.2.scopes.length) :
    Later depth (renderExpr t y.1 y.2).2 (renderExpr t x.1 x.2).2 ∧
      ((renderExpr t x.1 x.2).1.isOk = true → (renderExpr t y.1 y.2).1.isOk = true) := by
  induction h with
  | refl => exact ⟨.refl _, id⟩
  | tail hcourse hcomes ih =>
    obtain ⟨hlater, hok⟩ := hcomes.later (Nat.le_trans hdepth (Course.depth_le hcourse))
    exact ⟨hlater.trans ih.1, fun h => hok (ih.2 h)⟩

end MeasureSql.Rendering
