import MeasureSql.Proofs.Pattern.Binding

/-!
# Which argument goes to which parameter

The parameters of a pattern take the arguments of a call in order, one each; with a separator the
last parameter takes all that are left.  So the shares of the parameters, one behind the other, and
the arguments that are left over are the arguments of the call: none is lost, moved or used twice.

## Main definitions

* `Pattern.share` — the arguments that fall to a parameter, by its place.
* `Pattern.shareValue` — what a parameter is bound to for its share.
* `Pattern.leftOver` — the arguments that no parameter takes.

## Main results

* `Pattern.flatMap_share_append_leftOver` — shares and leftovers are the arguments.
* `Pattern.lookup_bindFrom` — every parameter is bound to its share.
* `Pattern.bind_shares` — what binding a call does, and when the call has no SQL.
-/

namespace MeasureSql.Pattern

/-- The arguments that fall to the parameter at a place among `count` ones: the one at its place,
or for the last of them, if there is a separator, all from its place on. -/
def share (p : Pattern) (count : Nat) (args : List String) (place : Nat) : List String :=
  if p.separator.isSome = true ∧ place + 1 = count then args.drop place else args[place]?.toList

/-- What a parameter is bound to for its share: several arguments are joined by the separator. -/
def shareValue (p : Pattern) : List String → Option String
  | [] => none
  | arg :: more => some ((p.separator.getD "").intercalate (arg :: more))

/-- The arguments that none of `count` parameters takes. -/
def leftOver (p : Pattern) (count : Nat) (args : List String) : List String :=
  if p.separator.isSome = true ∧ 0 < count then [] else args.drop count

/-- The arguments that the first parameter leaves to `count` others. -/
def passedOn (p : Pattern) (count : Nat) (args : List String) : List String :=
  args.drop (p.share (count + 1) args 0).length

/-! ## Shares -/

/-- A share is empty when the arguments end before its place. -/
theorem share_eq_nil_iff (p : Pattern) (count : Nat) (args : List String) (place : Nat) :
    p.share count args place = [] ↔ args.length ≤ place := by
  unfold share
  split <;> simp

/-- A parameter that is not the last takes one argument. -/
theorem share_zero_of_pos (p : Pattern) {count : Nat} (more : 0 < count) (args : List String) :
    p.share (count + 1) args 0 = args.head?.toList := by
  have apart : ¬(p.separator.isSome = true ∧ 0 + 1 = count + 1) := fun last => by omega
  rw [share, if_neg apart, List.head?_eq_getElem?]

theorem passedOn_of_pos (p : Pattern) {count : Nat} (more : 0 < count) (args : List String) :
    p.passedOn count args = args.tail := by
  rw [passedOn, p.share_zero_of_pos more]
  cases args <;> rfl

/-- The last parameter takes one argument as well, or with a separator all of them. -/
theorem share_one_zero (p : Pattern) (args : List String) :
    p.share 1 args 0 = if p.separator.isSome = true then args else args.head?.toList := by
  simp [share, List.head?_eq_getElem?]

/-- The first parameter takes its share from the front. -/
theorem share_append_passedOn (p : Pattern) (count : Nat) (args : List String) :
    p.share (count + 1) args 0 ++ p.passedOn count args = args := by
  obtain rfl | more := Nat.eq_zero_or_pos count
  · rw [passedOn, share_one_zero]
    split
    · simp
    · cases args <;> rfl
  · rw [p.share_zero_of_pos more, p.passedOn_of_pos more]
    cases args <;> rfl

/-- The others share what they are left. -/
theorem share_passedOn (p : Pattern) {count : Nat} (args : List String) {place : Nat}
    (lower : place < count) :
    p.share count (p.passedOn count args) place = p.share (count + 1) args (place + 1) := by
  rw [p.passedOn_of_pos (by omega)]
  simp [share, List.getElem?_tail, List.drop_tail]

theorem leftOver_passedOn (p : Pattern) (count : Nat) (args : List String) :
    p.leftOver count (p.passedOn count args) = p.leftOver (count + 1) args := by
  obtain rfl | more := Nat.eq_zero_or_pos count
  · rw [passedOn, share_one_zero]
    split
    · next joins => simp [leftOver, joins]
    · next single => cases args <;> simp [leftOver, single]
  · rw [p.passedOn_of_pos more]
    simp [leftOver, more, List.drop_tail]

/-- **Shares and leftovers are the arguments**, each once and in order. -/
theorem flatMap_share_append_leftOver (p : Pattern) (count : Nat) (args : List String) :
    (List.range count).flatMap (p.share count args) ++ p.leftOver count args = args := by
  induction count generalizing args with
  | zero => simp [leftOver]
  | succ count ih =>
    have others : (List.range count).flatMap (fun place => p.share (count + 1) args (place + 1)) =
        (List.range count).flatMap (p.share count (p.passedOn count args)) := by
      refine congrArg List.flatten (List.map_congr_left fun place lower => ?_)
      exact (p.share_passedOn args (List.mem_range.mp lower)).symm
    rw [List.range_succ_eq_map, List.flatMap_cons, List.flatMap_map, others, List.append_assoc,
      ← leftOver_passedOn, ih, share_append_passedOn]

/-! ## Giving a parameter its value -/

/-- An argument by itself is bound as it is. -/
theorem shareValue_toList (p : Pattern) (arg : Option String) : p.shareValue arg.toList = arg := by
  cases arg with
  | none => rfl
  | some arg => exact congrArg some String.intercalate_singleton

theorem isNone_shareValue (p : Pattern) (share : List String) :
    (p.shareValue share).isNone = share.isEmpty := by
  cases share <;> rfl

/-- What a parameter is bound to when it is given its value. -/
theorem lookup_give (b : BoundArgs) (defaults : Bindings) (param : String)
    (value : Option String) :
    (b.give defaults param value).bindings.lookup param =
      value.or (if defaults.contains param then b.bindings.lookup param else some "NULL") := by
  cases value with
  | some value => simp [BoundArgs.give]
  | none =>
    simp only [BoundArgs.give]
    split <;> simp

theorem missing_give (b : BoundArgs) (defaults : Bindings) (param : String)
    (value : Option String) :
    (b.give defaults param value).missing =
      b.missing ++ if value.isNone && !defaults.contains param then [param] else [] := by
  cases value with
  | some value => simp [BoundArgs.give]
  | none =>
    simp only [BoundArgs.give]
    split <;> simp [*]

theorem extra_give (b : BoundArgs) (defaults : Bindings) (param : String)
    (value : Option String) : (b.give defaults param value).extra = b.extra := by
  cases value with
  | some value => rfl
  | none =>
    simp only [BoundArgs.give]
    split <;> rfl

/-! ## Binding -/

/-- **A step of binding**: the first parameter is given its share, and the others get what it
leaves. -/
theorem bindFrom_cons (p : Pattern) (param : String) (params args : List String) {b : BoundArgs}
    (fresh : b.extra = 0) :
    p.bindFrom (param :: params) args b =
      p.bindFrom params (p.passedOn params.length args)
        (b.give p.defaults param (p.shareValue (p.share (params.length + 1) args 0))) := by
  cases params with
  | nil =>
    rw [List.length_nil, Nat.zero_add, passedOn, share_one_zero, bindFrom, bindFrom]
    cases separator : p.separator with
    | none =>
      rw [if_neg (by simp), shareValue_toList]
      cases args <;> rfl
    | some sep =>
      have value : (if args.isEmpty then none else some (sep.intercalate args)) =
          p.shareValue args := by
        cases args <;> simp [shareValue, separator]
      have kept := (extra_give b p.defaults param (p.shareValue args)).trans fresh
      simp only [Option.isSome_some, if_true, List.drop_length, List.length_nil]
      rw [value, ← kept]
  | cons next params =>
    have more : 0 < (next :: params).length := Nat.succ_pos _
    rw [p.share_zero_of_pos more, p.passedOn_of_pos more, shareValue_toList, bindFrom]
    exact List.cons_ne_nil _ _

/-- **Every parameter is bound to its share.**  Without arguments it keeps its default, or is bound
to `NULL`. -/
theorem lookup_bindFrom (p : Pattern) {params : List String} (distinct : params.Nodup)
    (args : List String) {b : BoundArgs} (fresh : b.extra = 0) {place : Nat}
    (lower : place < params.length) :
    (p.bindFrom params args b).bindings.lookup params[place] =
      (p.shareValue (p.share params.length args place)).or
        (if p.defaults.contains params[place] then b.bindings.lookup params[place]
          else some "NULL") := by
  induction params generalizing args b place with
  | nil => cases lower
  | cons param params ih =>
    obtain ⟨other, distinct⟩ := List.nodup_cons.mp distinct
    rw [p.bindFrom_cons param params args fresh]
    cases place with
    | zero =>
      -- No later parameter has the name of the first one.
      rw [List.getElem_cons_zero, p.lookup_bindFrom_of_not_mem _ _ _ other, lookup_give,
        List.length_cons]
    | succ place =>
      have lower : place < params.length := Nat.lt_of_succ_lt_succ lower
      have apart : params[place] ≠ param := fun same => other (same ▸ List.getElem_mem lower)
      rw [List.getElem_cons_succ, List.length_cons,
        ih distinct _ ((extra_give _ _ _ _).trans fresh) lower, p.share_passedOn args lower,
        b.lookup_give_of_ne _ _ apart]

/-- **Missing** are the parameters behind the last argument that have no default, in order. -/
theorem missing_bindFrom (p : Pattern) (params args : List String) {b : BoundArgs}
    (fresh : b.extra = 0) :
    (p.bindFrom params args b).missing =
      b.missing ++ (params.drop args.length).filter fun param => !p.defaults.contains param := by
  induction params generalizing args b with
  | nil => simp [bindFrom]
  | cons param params ih =>
    rw [p.bindFrom_cons param params args fresh, ih _ ((extra_give _ _ _ _).trans fresh),
      missing_give, isNone_shareValue]
    cases args with
    | nil =>
      have none : p.share (params.length + 1) [] 0 = [] :=
        (p.share_eq_nil_iff _ _ _).mpr (Nat.le_refl 0)
      have left : p.passedOn params.length [] = [] := by simp [passedOn]
      rw [none, left]
      cases without : !p.defaults.contains param <;> simp [without]
    | cons arg args =>
      have given : (p.share (params.length + 1) (arg :: args) 0).isEmpty = false := by
        rw [List.isEmpty_eq_false_iff, ne_eq, share_eq_nil_iff]
        simp
      rw [given, List.length_cons, List.drop_succ_cons]
      cases params with
      | nil => simp
      | cons next params =>
        rw [p.passedOn_of_pos (by simp)]
        simp

/-- **Left over** are the arguments that no parameter takes. -/
theorem extra_bindFrom (p : Pattern) (params args : List String) {b : BoundArgs}
    (fresh : b.extra = 0) :
    (p.bindFrom params args b).extra = (p.leftOver params.length args).length := by
  induction params generalizing args b with
  | nil => simp [bindFrom, leftOver]
  | cons param params ih =>
    rw [p.bindFrom_cons param params args fresh, ih _ ((extra_give _ _ _ _).trans fresh),
      leftOver_passedOn, List.length_cons]

/-! ## Calls -/

/-- A hole has a value after a call has been bound unless it is neither a parameter nor has a
default. -/
theorem isNone_valueOf_bind (p : Pattern) (d : Dialect) (args : List String) (hole : String) :
    (p.valueOf d (p.bind args).bindings hole).isNone =
      (!p.params.contains hole && !p.defaults.contains hole) := by
  rw [← Option.not_isSome, isSome_valueOf]
  cases param : p.params.contains hole with
  | true =>
    have served := p.isSome_lookup_bind args (List.contains_iff_mem.mp param)
    rcases served with bound | default <;> simp [*]
  | false =>
    have other : hole ∉ p.params := by simpa using param
    simp [p.lookup_bind_eq_none args other]

/-- **A call has no SQL** when its template has a hole that is neither a parameter nor has a
default; the first such hole is reported. -/
theorem render_bind_eq_error_iff (p : Pattern) (d : Dialect) (args : List String)
    {e : TemplateError} :
    p.render d (p.bind args).bindings = .error e ↔
      ∃ hole, (Template.holes p.template).find? (fun hole =>
          !p.params.contains hole && !p.defaults.contains hole) = some hole ∧
        e = .unbound p.name hole := by
  rw [render, Template.fill, Template.holes_renameFunctions]
  simp only [isNone_valueOf_bind]
  split
  · next hole first =>
    rw [first]
    constructor
    · intro same
      exact ⟨hole, rfl, (Except.error.inj same).symm⟩
    · rintro ⟨_, ⟨⟩, rfl⟩
      rfl
  · next none =>
    rw [none]
    simp

/-- **Binding loses no argument.**  When the parameters of a pattern have different names, the
arguments of a call are their shares, one behind the other, and as many more as are left over.
Every parameter is bound to its share, or without one to `NULL` unless it has a default; those
bound to `NULL` are the missing ones, in order, and nothing but parameters is bound.  So a call has
no SQL only when its template has a hole that is neither a parameter nor has a default, and then
the first such hole is reported. -/
theorem bind_shares (p : Pattern) (distinct : p.params.Nodup) (args : List String) :
    (∃ rest, (List.range p.params.length).flatMap (p.share p.params.length args) ++ rest = args ∧
      (p.bind args).extra = rest.length) ∧
    (∀ place (lower : place < p.params.length),
      (p.bind args).bindings.lookup p.params[place] =
        (p.shareValue (p.share p.params.length args place)).or
          (if p.defaults.contains p.params[place] then none else some "NULL")) ∧
    (∀ place, p.share p.params.length args place = [] ↔ args.length ≤ place) ∧
    (p.bind args).missing =
      (p.params.drop args.length).filter (fun param => !p.defaults.contains param) ∧
    (∀ name, name ∈ p.params →
      ((p.bind args).bindings.lookup name).isSome = true ∨ p.defaults.contains name = true) ∧
    (∀ name, name ∉ p.params → (p.bind args).bindings.lookup name = none) ∧
    ∀ d e, p.render d (p.bind args).bindings = .error e ↔
      ∃ hole, (Template.holes p.template).find? (fun hole =>
          !p.params.contains hole && !p.defaults.contains hole) = some hole ∧
        e = .unbound p.name hole := by
  refine ⟨⟨_, p.flatMap_share_append_leftOver _ args, p.extra_bindFrom _ _ rfl⟩, ?_,
    p.share_eq_nil_iff _ args, ?_, fun name => p.isSome_lookup_bind args,
    fun name => p.lookup_bind_eq_none args, fun d e => p.render_bind_eq_error_iff d args⟩
  · intro place lower
    rw [bind, p.lookup_bindFrom distinct args rfl lower]
    rfl
  · rw [bind, p.missing_bindFrom _ _ rfl]
    rfl

/-- Of four parameters, the last with a separator, two arguments leave one with its default and one
missing, and six arguments leave three to the last; no argument fills the hole for the table. -/
theorem bind_shares_two_and_six :
    let p : Pattern := ⟨"TOPN", .table, "\x7ba\x7d \x7bb\x7d \x7bc\x7d \x7bd\x7d \x7btable\x7d",
      "", none, none, ["a", "b", "c", "d"], [("c", "0")], some ", ", false, false, .simple⟩
    p.params.Nodup ∧ (p.bind ["x", "y"]).missing = ["d"] ∧
      (p.bind ["x", "y"]).bindings.lookup "d" = some "NULL" ∧
      (p.bind ["1", "2", "3", "4", "5", "6"]).bindings.lookup "d" = some "4, 5, 6" ∧
      p.render .snowflake (p.bind ["x", "y"]).bindings = .error (.unbound "TOPN" "table") := by
  intro p
  have distinct : p.params.Nodup := by decide
  obtain ⟨-, bound, -, missing, -, -, unbound⟩ := bind_shares p distinct ["x", "y"]
  obtain ⟨-, bound', -⟩ := bind_shares p distinct ["1", "2", "3", "4", "5", "6"]
  refine ⟨distinct, missing.trans (by decide), (bound 3 (by decide)).trans (by decide +kernel),
    (bound' 3 (by decide)).trans (by decide +kernel), ?_⟩
  exact (unbound .snowflake _).mpr ⟨"table", by decide +kernel, rfl⟩

end MeasureSql.Pattern
