import MeasureSql.Pattern.Basic
import MeasureSql.Proofs.Pattern.Template

/-!
# Arguments and parameters

What is known after the arguments of a call have been put to the parameters of its pattern: every
parameter has a value or a default, and nothing but parameters has been given one.  From this
follows when a call by its pattern gives SQL.

## Main results

* `Pattern.isSome_lookup_bind` — every parameter is bound or has a default.
* `Pattern.lookup_bind_eq_none` — nothing else is bound.
* `Pattern.render_eq_ok` — a pattern whose holes all have a value gives SQL.
-/

namespace MeasureSql

namespace Bindings

/-- A name is bound when looking it up gives a value. -/
theorem contains_eq_isSome_lookup (b : Bindings) (name : String) :
    b.contains name = (b.lookup name).isSome := by
  rw [contains]
  induction b with
  | nil => rfl
  | cons entry b ih =>
    obtain ⟨key, value⟩ := entry
    rw [List.any_cons, List.lookup_cons, ih]
    by_cases h : name = key
    · simp [h]
    · simp [beq_eq_false_iff_ne.mpr h, beq_eq_false_iff_ne.mpr (Ne.symm h)]

/-- The value that was bound last is found. -/
@[simp] theorem lookup_insert_self (b : Bindings) (name value : String) :
    (b.insert name value).lookup name = some value := by
  rw [insert]
  induction b with
  | nil => simp
  | cons entry b ih =>
    obtain ⟨key, v⟩ := entry
    by_cases h : key = name
    · simpa [List.filter_cons, h] using ih
    · simpa [List.filter_cons, h, List.lookup_cons, beq_eq_false_iff_ne.mpr (Ne.symm h)] using ih

/-- Binding one name leaves the others as they were. -/
theorem lookup_insert_of_ne (b : Bindings) {name other : String} (value : String)
    (h : other ≠ name) : (b.insert name value).lookup other = b.lookup other := by
  rw [insert]
  induction b with
  | nil => simp [List.lookup_cons, beq_eq_false_iff_ne.mpr h]
  | cons entry b ih =>
    obtain ⟨key, v⟩ := entry
    by_cases hk : key = name
    · simpa [List.filter_cons, hk, List.lookup_cons, beq_eq_false_iff_ne.mpr h] using ih
    · simp only [List.filter_cons, bne_iff_ne, ne_eq, hk, not_false_eq_true, if_true,
        List.cons_append, List.lookup_cons]
      rw [ih]

/-- What was bound stays bound. -/
theorem isSome_lookup_insert (b : Bindings) {name other : String} (value : String)
    (h : (b.lookup other).isSome = true) : ((b.insert name value).lookup other).isSome = true := by
  by_cases ho : other = name
  · simp [ho]
  · rwa [lookup_insert_of_ne b value ho]

end Bindings

namespace BoundArgs

/-- A parameter that was given its value is bound or has a default. -/
theorem isSome_lookup_give (b : BoundArgs) (defaults : Bindings) (param : String)
    (value : Option String) :
    ((b.give defaults param value).bindings.lookup param).isSome = true ∨
      defaults.contains param = true := by
  cases value with
  | some v => simp [give]
  | none =>
    cases hd : defaults.contains param with
    | true => exact .inr rfl
    | false => simp [give, hd]

/-- Giving one parameter its value leaves the other names as they were. -/
theorem lookup_give_of_ne (b : BoundArgs) (defaults : Bindings) {param other : String}
    (value : Option String) (h : other ≠ param) :
    (b.give defaults param value).bindings.lookup other = b.bindings.lookup other := by
  cases value with
  | some v => exact Bindings.lookup_insert_of_ne _ _ h
  | none =>
    simp only [give]
    split
    · rfl
    · exact Bindings.lookup_insert_of_ne _ _ h

/-- What was bound stays bound. -/
theorem isSome_lookup_give_of_isSome (b : BoundArgs) (defaults : Bindings) (param : String)
    {other : String} (value : Option String) (h : (b.bindings.lookup other).isSome = true) :
    ((b.give defaults param value).bindings.lookup other).isSome = true := by
  cases value with
  | some v => exact Bindings.isSome_lookup_insert _ _ h
  | none =>
    simp only [give]
    split
    · exact h
    · exact Bindings.isSome_lookup_insert _ _ h

end BoundArgs

namespace Pattern

/-- What was bound before stays bound. -/
theorem isSome_lookup_bindFrom_of_isSome (p : Pattern) (params args : List String) (b : BoundArgs)
    {name : String} (h : (b.bindings.lookup name).isSome = true) :
    ((p.bindFrom params args b).bindings.lookup name).isSome = true := by
  fun_induction bindFrom p params args b with
  | case1 args b => exact h
  | case2 param args b sep hsep => exact b.isSome_lookup_give_of_isSome _ _ _ h
  | case3 param args b hsep => exact b.isSome_lookup_give_of_isSome _ _ _ h
  | case4 param params args b hne ih => exact ih (b.isSome_lookup_give_of_isSome _ _ _ h)

/-- The parameters are bound or have defaults. -/
theorem isSome_lookup_bindFrom (p : Pattern) (params args : List String) (b : BoundArgs)
    {name : String} (h : name ∈ params) :
    ((p.bindFrom params args b).bindings.lookup name).isSome = true ∨
      p.defaults.contains name = true := by
  fun_induction bindFrom p params args b with
  | case1 args b => cases h
  | case2 param args b sep hsep =>
    rw [List.mem_singleton.mp h]
    exact b.isSome_lookup_give _ _ _
  | case3 param args b hsep =>
    rw [List.mem_singleton.mp h]
    exact b.isSome_lookup_give _ _ _
  | case4 param params args b hne ih =>
    rcases List.mem_cons.mp h with rfl | h
    · rcases b.isSome_lookup_give p.defaults name args.head? with hb | hd
      · exact .inl (p.isSome_lookup_bindFrom_of_isSome _ _ _ hb)
      · exact .inr hd
    · exact ih h

/-- A name that is no parameter keeps what it had. -/
theorem lookup_bindFrom_of_not_mem (p : Pattern) (params args : List String) (b : BoundArgs)
    {name : String} (h : name ∉ params) :
    (p.bindFrom params args b).bindings.lookup name = b.bindings.lookup name := by
  fun_induction bindFrom p params args b with
  | case1 args b => rfl
  | case2 param args b sep hsep =>
    exact b.lookup_give_of_ne _ _ fun heq => h (heq ▸ List.mem_cons_self)
  | case3 param args b hsep =>
    exact b.lookup_give_of_ne _ _ fun heq => h (heq ▸ List.mem_cons_self)
  | case4 param params args b hne ih =>
    rw [ih fun hmem => h (List.mem_cons_of_mem _ hmem)]
    exact b.lookup_give_of_ne _ _ fun heq => h (heq ▸ List.mem_cons_self)

/-- **Every parameter is bound by a call, or has a default.** -/
theorem isSome_lookup_bind (p : Pattern) (args : List String) {name : String}
    (h : name ∈ p.params) :
    ((p.bind args).bindings.lookup name).isSome = true ∨ p.defaults.contains name = true :=
  p.isSome_lookup_bindFrom _ _ _ h

/-- **A call binds nothing but parameters.** -/
theorem lookup_bind_eq_none (p : Pattern) (args : List String) {name : String}
    (h : name ∉ p.params) : (p.bind args).bindings.lookup name = none :=
  p.lookup_bindFrom_of_not_mem _ _ _ h

/-- A hole has a value when it is bound or has a default. -/
theorem isSome_valueOf (p : Pattern) (d : Dialect) (b : Bindings) (hole : String) :
    (p.valueOf d b hole).isSome = ((b.lookup hole).isSome || p.defaults.contains hole) := by
  rw [Bindings.contains_eq_isSome_lookup]
  simp [valueOf]

/-- **A pattern whose holes are all bound or have defaults gives SQL.** -/
theorem render_eq_ok (p : Pattern) (d : Dialect) {b : Bindings}
    (h : ∀ hole ∈ Template.holes p.template,
      (b.lookup hole).isSome = true ∨ p.defaults.contains hole = true) :
    ∃ sql, p.render d b = .ok sql := by
  refine ⟨_, Template.fill_eq_ok fun hole hmem => ?_⟩
  rw [Template.holes_renameFunctions] at hmem
  rw [isSome_valueOf]
  simpa using h hole hmem

/-- A pattern with a hole that is neither bound nor has a default names the first such hole. -/
theorem render_eq_error (p : Pattern) (d : Dialect) {b : Bindings} {hole : String}
    (front back : List String) (hholes : Template.holes p.template = front ++ hole :: back)
    (hfront : ∀ name ∈ front, (b.lookup name).isSome = true ∨ p.defaults.contains name = true)
    (hbound : b.lookup hole = none) (hdefault : p.defaults.contains hole = false) :
    p.render d b = .error (.unbound p.name hole) := by
  refine Template.fill_eq_error front back ?_ ?_ ?_
  · rw [Template.holes_renameFunctions, hholes]
  · intro name hname
    rw [isSome_valueOf]
    simpa using hfront name hname
  · have hnone := p.isSome_valueOf d b hole
    rw [hbound, hdefault] at hnone
    simpa using hnone

end Pattern

end MeasureSql
