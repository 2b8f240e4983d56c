import MeasureSql.Proofs.Pattern.Catalog
import MeasureSql.Proofs.Render.Moves
import MeasureSql.Proofs.Render.Nodes
import MeasureSql.Proofs.Schema.Joins

/-!
# What a good end tells of

Some states of rendering are not reached from just anywhere: confidence is never raised, and so a
computation that ends with high confidence began with it, and passed none of the steps that lower
it.  Such a computation speaks for what those steps would have been about: the names that it looked
up were found.

## Main definitions

* `IsResolved` — nothing had to be guessed for a node.
* `Ensures` — what holds of a computation when it ends in a good state.
* `Vouches` — high confidence at the end speaks for a fact.

## Main results

* `Ensures.bind` — a sequence is judged from its end.
* `vouches_resolveTable`, `vouches_resolveColumn` — high confidence speaks for names.
* `vouches_subquery` — a subquery is not of high confidence.
-/

namespace MeasureSql

open Dax

/-- Nothing had to be guessed for a node: its function has a pattern, its table or column is one of
the schema.  A word for an interval or a sort order needs no table, and a variable needs a value. -/
def IsResolved (t : Target) : Expr → Prop
  | .call name _ => t.patterns.contains name = true
  | .column ⟨some table, column⟩ => ∃ schema, t.schema? = some schema ∧
      (schema.table? table).isSome = true ∧ (schema.column? table column).isSome = true
  | .column ⟨none, column⟩ => ∃ schema, t.schema? = some schema ∧
      ∃ table ∈ schema.tables, (table.columnByKey? (Text.upper column)).isSome = true
  | .table name => (∃ schema, t.schema? = some schema ∧ (schema.table? name).isSome = true) ∨
      Text.upper name ∈ Rendering.intervals ++ Rendering.sortOrders
  | .variable _ value => value.isSome = true
  | .literal _ | .binary _ _ _ | .unary _ _ | .cond _ _ _ | .measure _ _ _ _ => True

/-- Nothing had to be guessed for some nodes. -/
def AllResolved (t : Target) (nodes : List Expr) : Prop :=
  ∀ node ∈ nodes, IsResolved t node

@[simp] theorem allResolved_nil (t : Target) : AllResolved t [] := by
  simp [AllResolved]

@[simp] theorem allResolved_cons (t : Target) (node : Expr) (nodes : List Expr) :
    AllResolved t (node :: nodes) ↔ IsResolved t node ∧ AllResolved t nodes := by
  simp [AllResolved]

@[simp] theorem allResolved_append (t : Target) (xs ys : List Expr) :
    AllResolved t (xs ++ ys) ↔ AllResolved t xs ∧ AllResolved t ys := by
  simp [AllResolved, or_imp, forall_and]

namespace Rendering

variable {α β : Type}

/-! ## Looking back from a good end -/

/-- When the computation gives a value in a good state, it began in a good state, and the value is
as it should be. -/
def Ensures (good : RenderState → Prop) (m : Rendering α) (post : α → Prop) : Prop :=
  ∀ s a s', m s = (.ok a, s') → good s' → good s ∧ post a

namespace Ensures

variable {good : RenderState → Prop}

theorem pure {post : α → Prop} {a : α} (h : post a) : Ensures good (Pure.pure a) post := by
  intro s b s' hrun hgood
  cases hrun
  exact ⟨hgood, h⟩

theorem imp {m : Rendering α} {post post' : α → Prop} (h : Ensures good m post)
    (himp : ∀ a, post a → post' a) : Ensures good m post' := by
  intro s a s' hrun hgood
  obtain ⟨hs, ha⟩ := h s a s' hrun hgood
  exact ⟨hs, himp a ha⟩

/-- **A sequence is judged from its end.** -/
theorem bind {m : Rendering α} {f : α → Rendering β} {mid : α → Prop} {post : β → Prop}
    (hm : Ensures good m mid) (hf : ∀ a, Ensures good (f a) fun b => mid a → post b) :
    Ensures good (m >>= f) post := by
  intro s b s' hrun hgood
  obtain ⟨a, s₁, hmid, hrun⟩ := exists_of_bind hrun
  obtain ⟨hgood₁, hpost⟩ := hf a s₁ b s' hrun hgood
  obtain ⟨hgood₀, ha⟩ := hm s a s₁ hmid hgood₁
  exact ⟨hgood₀, hpost ha⟩

/-- What becomes of the state after an error does not matter. -/
theorem endsLike {m m' : Rendering α} {post : α → Prop} (h : Ensures good m' post)
    (hlike : EndsLike m m') : Ensures good m post :=
  fun s a s' hrun => h s a s' (hlike.symm.of_ok hrun)

/-- Two parts in turn are judged from their end as a sequence is. -/
theorem inTurn {m : Rendering α} {n : Rendering β} {post : α → Prop} {post' : β → Prop}
    (hm : Ensures good m post) (hn : Ensures good n post') :
    Ensures good (Rendering.inTurn m n) fun ab => post ab.1 ∧ post' ab.2 :=
  endsLike (bind hm fun _ => bind hn fun _ => .pure fun hb ha => ⟨ha, hb⟩) (inTurn_endsLike m n)

theorem ite {c : Prop} [Decidable c] {m n : Rendering α} {post : α → Prop}
    (hm : Ensures good m post) (hn : Ensures good n post) :
    Ensures good (if c then m else n) post := by
  split
  · exact hm
  · exact hn

end Ensures

/-- High confidence at the end speaks for a fact. -/
def Vouches (P : Prop) (m : Rendering α) : Prop :=
  Ensures (fun s => s.confidence = .high) m fun _ => P

namespace Vouches

variable {P Q : Prop}

/-- A computation that may be anything else still vouches for its own beginning. -/
theorem of_led {m : Rendering α} (h : Led true m) : Vouches True m := by
  intro s a s' hrun hhigh
  have hled := h s
  rw [hrun] at hled
  exact ⟨(hled.high hhigh).1, trivial⟩

theorem imp {m : Rendering α} (h : Vouches P m) (himp : P → Q) : Vouches Q m :=
  Ensures.imp h fun _ => himp

/-- **High confidence speaks for both parts of a sequence.** -/
theorem bind {m : Rendering α} {f : α → Rendering β} (hm : Vouches P m)
    (hf : ∀ a, Vouches Q (f a)) : Vouches (P ∧ Q) (m >>= f) :=
  Ensures.bind hm fun a => (hf a).imp fun hq hp => ⟨hp, hq⟩

theorem bind_left {m : Rendering α} {f : α → Rendering β} (hm : Vouches P m)
    (hf : ∀ a, Led true (f a)) : Vouches P (m >>= f) :=
  (bind hm fun a => of_led (hf a)).imp And.left

theorem bind_right {m : Rendering α} {f : α → Rendering β} (hm : Led true m)
    (hf : ∀ a, Vouches Q (f a)) : Vouches Q (m >>= f) :=
  (bind (of_led hm) hf).imp And.right

theorem withRow (row : Option String) {act : Rendering α} (h : Vouches P act) :
    Vouches P (Rendering.withRow row act) := by
  cases row with
  | none => rwa [withRow_none]
  | some name =>
    intro s a s' hrun hhigh
    rw [run_withRow] at hrun
    rcases hact : act { s with rowTables := s.rowTables ++ [name] } with ⟨r, s₁⟩
    rw [hact] at hrun
    cases hrun
    have hinner := h _ a s₁ hact hhigh
    exact hinner

theorem alongRow (row : Option String) {act : Rendering α} (h : Vouches P act) :
    Vouches P (Rendering.alongRow row act) :=
  Ensures.endsLike (h.withRow row) (alongRow_endsLike row act)

/-- **High confidence speaks for both of two parts in turn.** -/
theorem inTurn {m : Rendering α} {n : Rendering β} (hm : Vouches P m) (hn : Vouches Q n) :
    Vouches (P ∧ Q) (Rendering.inTurn m n) :=
  Ensures.inTurn hm hn

end Vouches

/-! ## What is never of high confidence -/

section Lowering

variable {P : Prop}

theorem vouches_note {level : Confidence} (hlevel : level ≠ .high) (warning : String) :
    Vouches P (note level warning) := by
  intro s a s' hrun hhigh
  cases hrun
  exact absurd (Leads.demote_eq_high hhigh).2 hlevel

/-- What begins with a warning vouches for anything. -/
theorem vouches_note_bind {level : Confidence} (hlevel : level ≠ .high) (warning : String)
    {f : Unit → Rendering α} (hf : ∀ a, Led true (f a)) :
    Vouches P (note level warning >>= f) :=
  Vouches.bind_left (vouches_note hlevel warning) hf

/-- A pattern that is complex or a matter of time is not of high confidence. -/
theorem vouches_usePattern (t : Target) {p : Pattern}
    (h : p.complexity = .complex ∨ p.category = .timeIntelligence) :
    Vouches P (usePattern t p) := by
  have hmedium : ∀ warning, Led true (note .medium warning) := led_note (by decide)
  have hdemote : Vouches P (demote .medium) := by
    intro s a s' hrun hhigh
    cases hrun
    exact absurd (Leads.demote_eq_high hhigh).2 (by decide)
  have hcomplex : Vouches P (do
      if p.complexity = .complex || p.category = .timeIntelligence then
        demote .medium
      if p.isDialectSpecific && !t.dialect.runsTemplates then
        note .medium
          (p.name ++ " uses Snowflake-specific SQL; review it for " ++ t.dialect.name)) := by
    have hcond : (decide (p.complexity = .complex) || decide (p.category = .timeIntelligence))
        = true := by
      simpa using h
    rw [if_pos hcond]
    exact hdemote.bind_left fun _ => Led.ite (hmedium _) (.pure _)
  exact Vouches.bind_right (fun s => Leads.pattern p.name s) fun _ =>
    .ite (Vouches.bind_right (hmedium _) fun _ => hcomplex) hcomplex

/-- The subqueries are complex or a matter of time. -/
theorem isComplex_of_mem_subqueries {p : Pattern} (hp : p ∈ Catalog.builtin)
    (hname : p.name ∈ Catalog.subqueries) :
    p.complexity = .complex ∨ p.category = .timeIntelligence := by
  have hall : ∀ p ∈ Catalog.builtin, p.name ∈ Catalog.subqueries →
      p.complexity = .complex ∨ p.category = .timeIntelligence := by
    decide +kernel
  exact hall p hp hname

/-- The subqueries have patterns, those of the catalog. -/
theorem exists_get?_of_mem_subqueries {word : String} (h : word ∈ Catalog.subqueries) :
    ∃ p ∈ Catalog.builtin, PatternLibrary.builtin.get? word = some p ∧ p.name = word := by
  have hall : ∀ word ∈ Catalog.subqueries, ∃ p ∈ Catalog.builtin, p.name = word := by
    decide
  exact PatternLibrary.exists_get?_of_name (hall word h)

/-- **A subquery is not of high confidence.** -/
theorem vouches_subquery {t : Target} (ht : t.patterns = .builtin) {word : String}
    (hword : word ∈ Catalog.subqueries) {apply : Rendering Unit} {expression : Rendering String}
    (happly : Led true apply) (hexpression : Led false expression) :
    Vouches P (subquery t word apply expression) := by
  obtain ⟨p, hp, hget, hname⟩ := exists_get?_of_mem_subqueries hword
  have hcomplex := isComplex_of_mem_subqueries hp (hname ▸ hword)
  have hnamed : ∀ sql : String, Vouches P (do usePatternNamed t word; Pure.pure sql) := by
    intro sql
    rw [usePatternNamed, ht, hget]
    exact (vouches_usePattern t hcomplex).bind_left fun _ => Led.pure _
  rw [subquery]
  refine Vouches.bind_right (Led.relax (Led.keepingFilters (Led.bind happly.withScope fun _ =>
    Led.bind hexpression.relax.withScope fun _ => Led.bind (led_forM led_useTable) fun _ =>
      Led.bind led_get fun _ => .pure _))) fun a => ?_
  refine .ite (.ite (hnamed _) (Vouches.bind_right (led_note (by decide) _) fun _ =>
    hnamed _)) (Vouches.bind_right (led_fromClause t _) fun _ => ?_)
  rw [ht, hget]
  exact (vouches_usePattern t hcomplex).bind_left fun _ => led_fillPattern t p _

end Lowering

/-! ## Names -/

section Names

variable {t : Target}

theorem vouches_resolveTable (name : String) :
    Vouches (∃ schema, t.schema? = some schema ∧ (schema.table? name).isSome = true)
      (resolveTable t name) := by
  have huse : ∀ resolved, Led true (do useTable resolved; Pure.pure resolved) :=
    fun resolved => Led.bind (led_useTable resolved) fun _ => .pure _
  rw [resolveTable]
  dsimp only
  split
  · next schema hschema =>
    split
    · next table htable =>
      exact (Vouches.of_led (Led.bind (.pure _) huse)).imp fun _ =>
        ⟨schema, hschema, by simp [htable]⟩
    · exact vouches_note_bind (by decide) _ fun _ => Led.bind (.pure _) huse
  · exact vouches_note_bind (by decide) _ fun _ => Led.bind (.pure _) huse

/-- **High confidence speaks for a column.** -/
theorem vouches_resolveColumn (ref : ColumnRef) :
    Vouches (IsResolved t (.column ref)) (resolveColumn t ref) := by
  obtain ⟨table, column⟩ := ref
  rw [resolveColumn]
  cases table with
  | some table =>
    let Known : Prop := ∀ schema, t.schema? = some schema →
      (schema.column? table column).isSome = true
    refine (Vouches.bind (Q := Known) (vouches_resolveTable table) fun tableSql => ?_).imp ?_
    · dsimp only [Known]
      cases t.schema? with
      | none => exact Ensures.pure (by simp)
      | some schema =>
        dsimp only
        split
        · next found hfound =>
          refine Ensures.pure fun schema' hschema => ?_
          cases hschema
          simp [hfound]
        · exact vouches_note_bind (by decide) _ fun _ => .pure _
    · rintro ⟨⟨schema, hschema, htable⟩, hfound⟩
      exact ⟨schema, hschema, htable, hfound schema hschema⟩
  | none =>
    dsimp only
    rw [resolveBare]
    split
    · next schema hschema =>
      refine Vouches.bind_right led_get fun s => ?_
      split
      · next table found hfound =>
        refine (Vouches.of_led (Led.bind (led_useTable _) fun _ => .pure _)).imp fun _ => ?_
        obtain ⟨hmem, hcolumn⟩ := Schema.mem_of_findColumn? hfound
        exact ⟨schema, hschema, table, hmem, by simp [hcolumn]⟩
      · exact vouches_note_bind (by decide) _ fun _ => .pure _
    · refine vouches_note_bind (by decide) _ fun _ => Led.bind led_get fun s => ?_
      cases s.rowTables.getLast? with
      | some table => exact .pure _
      | none => exact .pure _

end Names

end Rendering

end MeasureSql
