import Mathlib.Data.List.Forall2
import MeasureSql.Proofs.FilterContext
import MeasureSql.Proofs.Pattern.Binding
import MeasureSql.Proofs.Render.Frame

/-!
# Texts that are alike

A rule writes the texts of its parts one after the other, and a template puts them into holes.  So a
relation between texts that is kept when texts are appended is kept by all that a rule does with
them: arguments that are bound, templates that are filled, conditions that are added to the filters.
Two computations do the same when, from states whose filters are alike, they give values in relation
and come to states whose filters are alike, or fail with the same error.

## Main definitions

* `Congruence` — relations between texts that are kept when texts are appended.
* `FiltersAlike`, `Alike` — filters with conditions that are alike, and states with such filters.
* `SameResult`, `Both` — results in relation, and computations that give them.

## Main results

* `bind_alike`, `fill_alike` — arguments and templates.
* `Both.bind` — computations one after the other.
* `both_resolveColumn`, `both_fromClause`, … — the steps that render no part.
-/

namespace MeasureSql.Rendering

open Dax List

/-! ## Texts -/

/-- The relation holds between equal texts, is kept when texts are appended, and relates the empty
text to itself only. -/
structure Congruence (R : String → String → Prop) : Prop where
  refl (a : String) : R a a
  append {a a' b b' : String} (ha : R a a') (hb : R b b') : R (a ++ b) (a' ++ b')
  eq_empty {a a' : String} (h : R a a') : a = "" ↔ a' = ""

/-- The relation, which is equality when a condition is met. -/
def EqualIf (p : Prop) (R : String → String → Prop) (a a' : String) : Prop :=
  R a a' ∧ (p → a = a')

section Texts

variable {R : String → String → Prop} {a a' : String}

theorem Congruence.around (hR : Congruence R) (front : String) (h : R a a') (back : String) :
    R (front ++ a ++ back) (front ++ a' ++ back) :=
  hR.append (hR.append (hR.refl front) h) (hR.refl back)

/-- Lists of texts in relation are joined to texts in relation. -/
theorem Congruence.intercalate (hR : Congruence R) (sep : String) {as as' : List String}
    (h : Forall₂ R as as') : R (sep.intercalate as) (sep.intercalate as') := by
  induction h with
  | nil => exact hR.refl _
  | cons ha htail ih =>
    cases htail with
    | nil => simpa using ha
    | cons hb hrest =>
      rw [String.intercalate_cons_cons, String.intercalate_cons_cons]
      exact hR.append (hR.append ha (hR.refl sep)) ih

theorem Congruence.equalIf (hR : Congruence R) (p : Prop) : Congruence (EqualIf p R) where
  refl a := ⟨hR.refl a, fun _ => rfl⟩
  append ha hb := ⟨hR.append ha.1 hb.1, fun hp => by rw [ha.2 hp, hb.2 hp]⟩
  eq_empty h := hR.eq_empty h.1

end Texts

/-! ## Templates -/

section Templates

variable {R : String → String → Prop}

/-- The same names are bound to values in relation. -/
def BindingsAlike (R : String → String → Prop) (b b' : Bindings) : Prop :=
  Forall₂ (fun x x' => x.1 = x'.1 ∧ R x.2 x'.2) b b'

namespace BindingsAlike

variable {b b' : Bindings}

theorem lookup (h : BindingsAlike R b b') (name : String) :
    Option.Rel R (b.lookup name) (b'.lookup name) := by
  induction h with
  | nil => exact .none
  | @cons x x' b b' hx htail ih =>
    obtain ⟨key, value⟩ := x
    obtain ⟨key', value'⟩ := x'
    obtain ⟨rfl, hvalue⟩ := hx
    rw [List.lookup_cons, List.lookup_cons]
    cases name == key with
    | true => exact .some hvalue
    | false => exact ih

theorem contains (h : BindingsAlike R b b') (name : String) :
    b.contains name = b'.contains name := by
  induction h with
  | nil => rfl
  | cons hx htail ih =>
    unfold Bindings.contains at ih ⊢
    rw [List.any_cons, List.any_cons, ih, hx.1]

theorem insert (h : BindingsAlike R b b') (name : String) {value value' : String}
    (hvalue : R value value') : BindingsAlike R (b.insert name value) (b'.insert name value') := by
  refine rel_append (rel_filter (fun x x' hx => ?_) h) (.cons ⟨rfl, hvalue⟩ .nil)
  simp only [hx.1]

end BindingsAlike

/-- **A template filled with values in relation** gives texts in relation, or the same hole is left
open. -/
theorem fill_alike (hR : Congruence R) (pattern template : String)
    {value value' : String → Option String}
    (h : ∀ name, Option.Rel R (value name) (value' name)) :
    (∃ a a', Template.fill pattern template value = .ok a ∧
      Template.fill pattern template value' = .ok a' ∧ R a a') ∨
    ∃ err, Template.fill pattern template value = .error err ∧
      Template.fill pattern template value' = .error err := by
  have hnone : (fun name => (value name).isNone) = fun name => (value' name).isNone := by
    funext name
    have hname := h name
    revert hname
    cases value name <;> cases value' name <;> rintro ⟨⟩ <;> rfl
  have hpieces : ∀ pieces : List Template.Piece, R
      (String.ofList (pieces.flatMap (Template.fillPiece value)))
      (String.ofList (pieces.flatMap (Template.fillPiece value'))) := by
    intro pieces
    induction pieces with
    | nil => exact hR.refl _
    | cons piece pieces ih =>
      rw [flatMap_cons, flatMap_cons, String.ofList_append, String.ofList_append]
      refine hR.append ?_ ih
      cases piece with
      | char c => exact hR.refl _
      | hole name =>
        have hname := h name
        simp only [Template.fillPiece, String.ofList_toList]
        generalize value name = x, value' name = x' at hname
        cases hname with
        | some hvalue => exact hvalue
        | none => exact hR.refl _
  unfold Template.fill
  rw [hnone]
  cases (Template.holes template).find? fun name => (value' name).isNone with
  | some name => exact .inr ⟨_, rfl, rfl⟩
  | none => exact .inl ⟨_, _, rfl, rfl, hpieces _⟩

/-- Arguments that were bound alike. -/
structure BoundAlike (R : String → String → Prop) (b b' : BoundArgs) : Prop where
  bindings : BindingsAlike R b.bindings b'.bindings
  missing : b.missing = b'.missing
  extra : b.extra = b'.extra

theorem BoundAlike.give (hR : Congruence R) {b b' : BoundArgs} (h : BoundAlike R b b')
    (defaults : Bindings) (param : String) {value value' : Option String}
    (hvalue : Option.Rel R value value') :
    BoundAlike R (b.give defaults param value) (b'.give defaults param value') := by
  cases hvalue with
  | some hvalue => exact ⟨h.bindings.insert param hvalue, h.missing, h.extra⟩
  | none =>
    simp only [BoundArgs.give]
    split
    · exact h
    · exact ⟨h.bindings.insert param (hR.refl _), by rw [h.missing], h.extra⟩

theorem head?_alike {as as' : List String} (h : Forall₂ R as as') :
    Option.Rel R as.head? as'.head? := by
  cases h with
  | nil => exact .none
  | cons ha htail => exact .some ha

theorem tail_alike {as as' : List String} (h : Forall₂ R as as') : Forall₂ R as.tail as'.tail := by
  cases h with
  | nil => exact .nil
  | cons ha htail => exact htail

/-- **Arguments in relation are bound alike.** -/
theorem bind_alike (hR : Congruence R) (p : Pattern) {as as' : List String}
    (h : Forall₂ R as as') : BoundAlike R (p.bind as) (p.bind as') := by
  have hfrom : ∀ (params as : List String) (b : BoundArgs) {as' : List String} {b' : BoundArgs},
      Forall₂ R as as' → BoundAlike R b b' →
        BoundAlike R (p.bindFrom params as b) (p.bindFrom params as' b') := by
    intro params as b
    fun_induction Pattern.bindFrom p params as b with
    | case1 as b =>
      intro as' b' h hb
      exact ⟨hb.bindings, hb.missing, h.length_eq⟩
    | case2 param as b sep hsep =>
      intro as' b' h hb
      rw [Pattern.bindFrom, hsep]
      refine hb.give hR _ _ ?_
      cases h with
      | nil => exact .none
      | cons ha htail => exact .some (hR.intercalate sep (.cons ha htail))
    | case3 param as b hsep =>
      intro as' b' h hb
      rw [Pattern.bindFrom, hsep]
      have hgive := hb.give hR p.defaults param (head?_alike h)
      exact ⟨hgive.bindings, hgive.missing, (tail_alike h).length_eq⟩
    | case4 param params as b hne ih =>
      intro as' b' h hb
      obtain ⟨q, qs, rfl⟩ := exists_cons_of_ne_nil hne
      exact ih (tail_alike h) (hb.give hR _ _ (head?_alike h))
  exact hfrom _ _ _ h ⟨.nil, rfl, rfl⟩

theorem valueOf_alike (hR : Congruence R) (p : Pattern) (d : Dialect) {b b' : Bindings}
    (h : BindingsAlike R b b') (name : String) :
    Option.Rel R (p.valueOf d b name) (p.valueOf d b' name) := by
  have hname := h.lookup name
  unfold Pattern.valueOf
  generalize b.lookup name = x, b'.lookup name = x' at hname
  cases hname with
  | some hvalue => exact .some hvalue
  | none =>
    cases p.defaults.lookup name with
    | none => exact .none
    | some default => exact .some (hR.refl _)

end Templates

/-! ## Filters -/

section Filters

variable {S : String → String → Prop} {f f' : FilterContext}

/-- The same keys have conditions in relation, and the same keys were taken away. -/
structure FiltersAlike (S : String → String → Prop) (f f' : FilterContext) : Prop where
  entries : Forall₂ (fun e e' => e.1 = e'.1 ∧ Forall₂ S e.2 e'.2) f.entries f'.entries
  removed : f.removed = f'.removed

namespace FiltersAlike

theorem refl (hS : Congruence S) (f : FilterContext) : FiltersAlike S f f :=
  ⟨forall₂_same.mpr fun _ _ => ⟨rfl, forall₂_same.mpr fun a _ => hS.refl a⟩, rfl⟩

/-- A condition that is added to both. -/
theorem add (h : FiltersAlike S f f') (table column : String) {c c' : String} (hc : S c c') :
    FiltersAlike S (f.add table column c) (f'.add table column c') := by
  refine ⟨?_, by simp only [FilterContext.add, h.removed]⟩
  have hentries : ∀ {entries entries' : List (String × List String)},
      Forall₂ (fun e e' => e.1 = e'.1 ∧ Forall₂ S e.2 e'.2) entries entries' →
      Forall₂ (fun e e' => e.1 = e'.1 ∧ Forall₂ S e.2 e'.2)
        (FilterContext.addEntry (FilterContext.key table column) c entries)
        (FilterContext.addEntry (FilterContext.key table column) c' entries') := by
    intro entries entries' hentries
    induction hentries with
    | nil => exact .cons ⟨rfl, .cons hc .nil⟩ .nil
    | cons he htail ih =>
      rw [FilterContext.addEntry, FilterContext.addEntry, ← he.1]
      split
      · exact .cons ⟨rfl, rel_append he.2 (.cons hc .nil)⟩ htail
      · exact .cons he ih
  exact hentries h.entries

/-- Keys are taken away from both. -/
theorem filter (h : FiltersAlike S f f') (p : String → Bool) :
    Forall₂ (fun e e' => e.1 = e'.1 ∧ Forall₂ S e.2 e'.2)
      (f.entries.filter fun e => p e.1) (f'.entries.filter fun e => p e.1) :=
  rel_filter (fun e e' he => by simp only [he.1]) h.entries

theorem keys {entries entries' : List (String × List String)}
    (h : Forall₂ (fun e e' => e.1 = e'.1 ∧ Forall₂ S e.2 e'.2) entries entries') :
    entries.map (·.1) = entries'.map (·.1) := by
  induction h with
  | nil => rfl
  | cons he htail ih => rw [map_cons, map_cons, he.1, ih]

theorem removeWhere (h : FiltersAlike S f f') (p : String → Bool) :
    FiltersAlike S (f.removeWhere p) (f'.removeWhere p) :=
  ⟨h.filter fun k => !p k, by
    simp only [FilterContext.removeWhere]
    rw [h.removed, keys (h.filter p)]⟩

theorem removeTable (h : FiltersAlike S f f') (table : String) :
    FiltersAlike S (f.removeTable table) (f'.removeTable table) :=
  h.removeWhere (FilterContext.ofTable table)

theorem keepOnly (h : FiltersAlike S f f') (table : String) (columns : List String) :
    FiltersAlike S (f.keepOnly table columns) (f'.keepOnly table columns) :=
  h.removeWhere fun k => FilterContext.ofTable table k &&
    !(columns.map (FilterContext.key table)).contains k

theorem removeColumn (h : FiltersAlike S f f') (table column : String) :
    FiltersAlike S (f.removeColumn table column) (f'.removeColumn table column) :=
  ⟨h.filter (· != FilterContext.key table column), by
    simp only [FilterContext.removeColumn, h.removed]⟩

/-- The conditions in force belong to the same keys. -/
theorem effective (h : FiltersAlike S f f') :
    Forall₂ (fun e e' => e.1 = e'.1 ∧ Forall₂ S e.2 e'.2) f.effective f'.effective := by
  unfold FilterContext.effective
  rw [h.removed]
  exact h.filter fun k => !f'.removed.contains k

theorem whereClause (hS : Congruence S) (h : FiltersAlike S f f') :
    S f.whereClause f'.whereClause :=
  hS.intercalate _ (rel_flatMap h.effective fun _ _ he => he.2)

/-- The tables are those of the keys. -/
theorem filterTables (h : FiltersAlike S f f') (t : Target) :
    t.filterTables f = t.filterTables f' := by
  have hkeys : ∀ entries : List (String × List String),
      entries.filterMap (fun e => keyTable? e.1) = (entries.map (·.1)).filterMap keyTable? := by
    intro entries
    rw [filterMap_map]
    rfl
  unfold Target.filterTables
  rw [hkeys, hkeys, keys h.effective]

end FiltersAlike

end Filters

/-! ## Computations -/

/-- The states differ in their filters only, which are alike. -/
def Alike (S : String → String → Prop) (s s' : RenderState) : Prop :=
  ∃ f, FiltersAlike S s.filters f ∧ s' = { s with filters := f }

theorem Alike.refl {S : String → String → Prop} (hS : Congruence S) (s : RenderState) :
    Alike S s s :=
  ⟨s.filters, .refl hS _, rfl⟩

/-- Both results are values, in relation, or both are the same error. -/
inductive SameResult {ε α β : Type} (R : α → β → Prop) : Except ε α → Except ε β → Prop
  | ok {a : α} {b : β} (h : R a b) : SameResult R (.ok a) (.ok b)
  | error (err : ε) : SameResult R (.error err) (.error err)

theorem SameResult.imp {ε α β : Type} {R R' : α → β → Prop} (hR : ∀ a b, R a b → R' a b)
    {x : Except ε α} {y : Except ε β} (h : SameResult R x y) : SameResult R' x y := by
  cases h with
  | ok hab => exact .ok (hR _ _ hab)
  | error err => exact .error err

/-- **The computations do the same** from states that are alike: their results are in relation, and
they come to states that are alike. -/
def Both {α β : Type} (S : String → String → Prop) (R : α → β → Prop) (m : Rendering α)
    (m' : Rendering β) : Prop :=
  ∀ s s', Alike S s s' → SameResult R (m s).1 (m' s').1 ∧ Alike S (m s).2 (m' s').2

namespace Both

variable {α β γ δ : Type} {S : String → String → Prop} {R : α → β → Prop} {Q : γ → δ → Prop}

theorem pure {a : α} {b : β} (h : R a b) : Both S R (Pure.pure a) (Pure.pure b) :=
  fun _ _ hs => ⟨.ok h, hs⟩

theorem fail (err : TemplateError) : Both S R (throw err) (throw err) :=
  fun _ _ hs => ⟨.error err, hs⟩

theorem imp {m : Rendering α} {m' : Rendering β} {R' : α → β → Prop} (h : Both S R m m')
    (hR : ∀ a b, R a b → R' a b) : Both S R' m m' :=
  fun s s' hs => ⟨(h s s' hs).1.imp hR, (h s s' hs).2⟩

/-- **One computation after another.** -/
theorem bind {m : Rendering α} {m' : Rendering β} {f : α → Rendering γ} {f' : β → Rendering δ}
    (hm : Both S R m m') (hf : ∀ a b, R a b → Both S Q (f a) (f' b)) :
    Both S Q (m >>= f) (m' >>= f') := by
  intro s s' hs
  rw [run_bind, run_bind]
  have hrun := hm s s' hs
  generalize m s = x, m' s' = x' at hrun
  obtain ⟨result, u⟩ := x
  obtain ⟨result', u'⟩ := x'
  obtain ⟨hresult, hu⟩ := hrun
  cases hresult with
  | ok hab => exact hf _ _ hab u u' hu
  | error err => exact ⟨.error err, hu⟩

/-- After a computation that gives the same value. -/
theorem bind_eq {m m' : Rendering α} {f : α → Rendering γ} {f' : α → Rendering δ}
    (hm : Both S Eq m m') (hf : ∀ a, Both S Q (f a) (f' a)) : Both S Q (m >>= f) (m' >>= f') :=
  hm.bind fun a _ hab => hab ▸ hf a

theorem ite {c : Prop} [Decidable c] {m n : Rendering α} {m' n' : Rendering β}
    (hm : Both S R m m') (hn : Both S R n n') :
    Both S R (if c then m else n) (if c then m' else n') := by
  split
  · exact hm
  · exact hn

/-- The values in relation are values of the computations. -/
theorem runs {m : Rendering α} {m' : Rendering β} (h : Both S R m m') :
    Both S (fun a b => R a b ∧ (∃ s u, m s = (.ok a, u)) ∧ ∃ s u, m' s = (.ok b, u)) m m' := by
  intro s s' hs
  obtain ⟨hresult, hstate⟩ := h s s' hs
  refine ⟨?_, hstate⟩
  rcases hm : m s with ⟨result, u⟩
  rcases hm' : m' s' with ⟨result', u'⟩
  rw [hm, hm'] at hresult
  cases hresult with
  | ok hab => exact .ok ⟨hab, ⟨s, u, hm⟩, s', u', hm'⟩
  | error err => exact .error err

/-- A change of the state that neither reads nor changes the filters. -/
theorem step {g : RenderState → RenderState} (hfilters : ∀ s, (g s).filters = s.filters)
    (hg : ∀ (s : RenderState) (f : FilterContext),
      g { s with filters := f } = { g s with filters := f }) :
    Both S Eq (modify g : Rendering Unit) (modify g : Rendering Unit) := by
  rintro s s' ⟨f, hf, rfl⟩
  exact ⟨.ok rfl, f, show FiltersAlike S (g s).filters f by rwa [hfilters], hg s f⟩

/-- A change of the filters that keeps them alike. -/
theorem changeFilters {g g' : FilterContext → FilterContext}
    (hg : ∀ f f', FiltersAlike S f f' → FiltersAlike S (g f) (g' f')) :
    Both S Eq (Rendering.changeFilters g) (Rendering.changeFilters g') := by
  rintro s s' ⟨f, hf, rfl⟩
  exact ⟨.ok rfl, g' f, hg _ _ hf, rfl⟩

theorem get {f : RenderState → Rendering γ} {f' : RenderState → Rendering δ}
    (h : ∀ s s', Alike S s s' → Both S Q (f s) (f' s')) : Both S Q (get >>= f) (get >>= f') := by
  intro s s' hs
  rw [run_bind, run_bind]
  exact h s s' hs s s' hs

/-- The outcomes of the computations, also where they are errors. -/
theorem observing {m : Rendering α} {m' : Rendering β} (h : Both S R m m') :
    Both S (SameResult R) (observing m : Rendering (Except TemplateError α)) (observing m') := by
  intro s s' hs
  rw [run_observing, run_observing]
  exact ⟨.ok (h s s' hs).1, (h s s' hs).2⟩

theorem ofExcept {x : Except TemplateError α} {y : Except TemplateError β}
    (h : SameResult R x y) : Both S R (ofExcept x : Rendering α) (ofExcept y : Rendering β) := by
  intro s s' hs
  rw [run_ofExcept, run_ofExcept]
  exact ⟨h, hs⟩

theorem enterRow (row : Option String) :
    Both S Eq (Rendering.enterRow row) (Rendering.enterRow row) := by
  cases row with
  | none => exact .pure rfl
  | some name => exact .step (fun _ => rfl) fun _ _ => rfl

theorem leaveRow (row : Option String) :
    Both S Eq (Rendering.leaveRow row) (Rendering.leaveRow row) := by
  cases row with
  | none => exact .pure rfl
  | some name => exact .step (fun _ => rfl) fun _ _ => rfl

theorem withRow (row : Option String) {act : Rendering α} {act' : Rendering β}
    (h : Both S R act act') :
    Both S R (Rendering.withRow row act) (Rendering.withRow row act') :=
  (enterRow row).bind fun _ _ _ => h.observing.bind fun _ _ hab =>
    (leaveRow row).bind fun _ _ _ => ofExcept hab

theorem alongRow (row : Option String) {act : Rendering α} {act' : Rendering β}
    (h : Both S R act act') :
    Both S R (Rendering.alongRow row act) (Rendering.alongRow row act') :=
  (enterRow row).bind fun _ _ _ => h.bind fun _ _ hab =>
    (leaveRow row).bind fun _ _ _ => .pure hab

/-- Two parts in turn, the second from states that are alike even after an error. -/
theorem inTurn {m : Rendering α} {m' : Rendering β} {n : Rendering γ} {n' : Rendering δ}
    (hm : Both S R m m') (hn : Both S Q n n') :
    Both S (fun x y => R x.1 y.1 ∧ Q x.2 y.2) (Rendering.inTurn m n) (Rendering.inTurn m' n') :=
  hm.observing.bind fun _ _ hab => hn.observing.bind fun _ _ hcd =>
    (ofExcept hab).bind fun _ _ hab => (ofExcept hcd).bind fun _ _ hcd => .pure ⟨hab, hcd⟩

theorem withScope {act : Rendering α} {act' : Rendering β} (h : Both S R act act') :
    Both S (fun x y => R x.1 y.1 ∧ x.2 = y.2) (Rendering.withScope act)
      (Rendering.withScope act') := by
  rintro s s' ⟨f, hf, rfl⟩
  have hrun := h { s with scopes := [] :: s.scopes }
    { s with filters := f, scopes := [] :: s.scopes } ⟨f, hf, rfl⟩
  simp only [Rendering.withScope]
  generalize act { s with scopes := [] :: s.scopes } = x,
    act' { s with filters := f, scopes := [] :: s.scopes } = x' at hrun
  obtain ⟨result, u⟩ := x
  obtain ⟨result', u'⟩ := x'
  obtain ⟨hresult, g, hg, rfl⟩ := hrun
  refine ⟨?_, g, hg, rfl⟩
  cases hresult with
  | ok hab => exact .ok ⟨hab, rfl⟩
  | error err => exact .error err

theorem keepingFilters {act : Rendering α} {act' : Rendering β} (h : Both S R act act') :
    Both S R (Rendering.keepingFilters act) (Rendering.keepingFilters act') := by
  rintro s s' ⟨f, hf, rfl⟩
  have hrun := h s { s with filters := f } ⟨f, hf, rfl⟩
  simp only [Rendering.keepingFilters]
  generalize act s = x, act' { s with filters := f } = x' at hrun
  obtain ⟨result, u⟩ := x
  obtain ⟨result', u'⟩ := x'
  obtain ⟨hresult, g, hg, rfl⟩ := hrun
  exact ⟨hresult, f, hf, rfl⟩

end Both

/-! ## Steps that render no part -/

section Steps

variable {S : String → String → Prop}

theorem both_note (level : Confidence) (warning : String) :
    Both S Eq (note level warning) (note level warning) :=
  .step (fun _ => rfl) fun _ _ => rfl

theorem both_useTable (table : String) : Both S Eq (useTable table) (useTable table) :=
  .step (fun _ => rfl) fun _ _ => rfl

theorem both_forM_useTable (tables : List String) :
    Both S Eq (tables.forM useTable) (tables.forM useTable) := by
  induction tables with
  | nil => exact .pure rfl
  | cons table tables ih => exact (both_useTable table).bind_eq fun _ => ih

theorem both_usePattern (t : Target) (p : Pattern) :
    Both S Eq (usePattern t p) (usePattern t p) := by
  have hdialect : ∀ m : Rendering Unit, m =
      (if p.isDialectSpecific && !t.dialect.runsTemplates then
        note .medium (p.name ++ " uses Snowflake-specific SQL; review it for " ++ t.dialect.name)
      else Pure.pure ()) → Both S Eq m m := by
    rintro m rfl
    exact .ite (both_note _ _) (.pure rfl)
  refine Both.bind_eq (.step (fun _ => rfl) fun _ _ => rfl) fun _ => ?_
  refine .ite (Both.bind_eq (both_note _ _) fun _ => ?_) ?_
  all_goals
    refine .ite (Both.bind_eq (.step (fun _ => rfl) fun _ _ => rfl) fun _ => ?_) ?_
    all_goals exact hdialect _ rfl

theorem both_usePatternNamed (t : Target) (name : String) :
    Both S Eq (usePatternNamed t name) (usePatternNamed t name) := by
  rw [usePatternNamed]
  split
  · exact both_usePattern t _
  · exact .pure rfl

theorem both_resolveTable (t : Target) (name : String) :
    Both S Eq (resolveTable t name) (resolveTable t name) := by
  have huse : ∀ resolved, Both S Eq (do useTable resolved; Pure.pure resolved)
      (do useTable resolved; Pure.pure resolved) :=
    fun resolved => (both_useTable resolved).bind_eq fun _ => .pure rfl
  rw [resolveTable]
  dsimp only
  split
  · split
    · exact Both.bind_eq (.pure rfl) huse
    · exact Both.bind_eq (both_note _ _) fun _ => Both.bind_eq (.pure rfl) huse
  · exact Both.bind_eq (both_note _ _) fun _ => Both.bind_eq (.pure rfl) huse

/-- A column in brackets alone is looked for in the rows, which are the same. -/
theorem both_resolveColumn (t : Target) (ref : ColumnRef) :
    Both S Eq (resolveColumn t ref) (resolveColumn t ref) := by
  rw [resolveColumn]
  split
  · refine Both.bind_eq (both_resolveTable t _) fun _ => ?_
    split
    · exact .pure rfl
    · split
      · exact .pure rfl
      · exact Both.bind_eq (both_note _ _) fun _ => .pure rfl
  · rw [resolveBare]
    split
    · refine Both.get ?_
      rintro s _ ⟨f, -, rfl⟩
      dsimp only
      split
      · exact Both.bind_eq (both_useTable _) fun _ => .pure rfl
      · exact Both.bind_eq (both_note _ _) fun _ => .pure rfl
    · refine Both.bind_eq (both_note _ _) fun _ => Both.get ?_
      rintro s _ ⟨f, -, rfl⟩
      dsimp only
      split
      · exact .pure rfl
      · exact .pure rfl

theorem both_noteUnjoined (base : String) (tables : List String) :
    Both S Eq (noteUnjoined base tables) (noteUnjoined base tables) := by
  induction tables with
  | nil => exact .pure rfl
  | cons table tables ih => exact Both.bind_eq (both_note _ _) fun _ => ih

theorem both_reachable (schema : Schema) (base : String) (tables : List String) :
    Both S Eq (reachable schema base tables) (reachable schema base tables) := by
  induction tables with
  | nil => exact .pure rfl
  | cons table tables ih =>
    rw [reachable]
    exact .ite (Both.bind_eq ih fun _ => .pure rfl) (Both.bind_eq (both_note _ _) fun _ => ih)

theorem both_fromClause (t : Target) (tables : List String) :
    Both S Eq (fromClause t tables) (fromClause t tables) := by
  unfold fromClause
  split
  · exact .pure rfl
  · refine .ite (.pure rfl) ?_
    split
    · exact Both.bind_eq (both_noteUnjoined _ _) fun _ => .pure rfl
    · refine Both.bind_eq (both_reachable _ _ _) fun others => ?_
      split
      · exact .pure rfl
      · exact Both.bind_eq (both_note _ _) fun _ => .pure rfl

theorem both_noteMissing (pattern : String) (params : List String) :
    Both S Eq (noteMissing pattern params) (noteMissing pattern params) := by
  induction params with
  | nil => exact .pure rfl
  | cons param params ih => exact Both.bind_eq (both_note _ _) fun _ => ih

end Steps

end MeasureSql.Rendering
