import MeasureSql.Proofs.Dax.Cutting

/-!
# The parser does not look at places

Positions are carried along for the messages only.  Two lists of tokens that say the same are parsed
alike, at any fuel and in any scope: into the same tree, with tokens left over that say the same, or
into the same fault.  This also holds where the parser stops before the end or finds a fault, which
the grammar says nothing about.

## Main definitions

* `Agrees` — two results of a rule of the parser differ in places only.
* `Placeless` — all rules of the parser agree on tokens that say the same, at some fuel.

## Main results

* `placeless` — all rules agree at any fuel.
* `agrees_parseExpression` — what that means for two streams.
-/

namespace MeasureSql.Dax

/-- The same value, and tokens that say the same are left, or the same fault somewhere. -/
inductive Agrees {α : Type} :
    Except ParseError (α × List Token) → Except ParseError (α × List Token) → Prop
  | ok (a : α) {rest rest' : List Token} (same : rest.map Token.word = rest'.map Token.word) :
      Agrees (.ok (a, rest)) (.ok (a, rest'))
  | error {e e' : ParseError} (same : e.fault = e'.fault) : Agrees (.error e) (.error e')

theorem Agrees.bind {α β : Type} {m m' : Except ParseError (α × List Token)}
    {f f' : α × List Token → Except ParseError (β × List Token)} (h : Agrees m m')
    (next : ∀ a rest rest', rest.map Token.word = rest'.map Token.word →
      Agrees (f (a, rest)) (f' (a, rest'))) : Agrees (m >>= f) (m' >>= f') := by
  cases h with
  | ok a same => exact next a _ _ same
  | error same => exact .error same

/-- The same fault at the next token of either list. -/
theorem agrees_faultAt {α : Type} {stop stop' : Position} (ts ts' : List Token)
    (fault : ParseFault) :
    Agrees (α := α) (.error (faultAt stop ts fault)) (.error (faultAt stop' ts' fault)) := by
  have fault_eq : ∀ (p : Position) (us : List Token), (faultAt p us fault).fault = fault := by
    intro p us
    cases us <;> rfl
  exact .error (by rw [fault_eq, fault_eq])

/-- Tokens that say the same are both none, or begin with tokens that say the same. -/
theorem cases_of_words {ts ts' : List Token} (same : ts.map Token.word = ts'.map Token.word) :
    ts = [] ∧ ts' = [] ∨ ∃ t rest t' rest', ts = t :: rest ∧ ts' = t' :: rest' ∧
      t.kind = t'.kind ∧ t.lexeme = t'.lexeme ∧
        rest.map Token.word = rest'.map Token.word := by
  cases ts' with
  | nil => exact .inl ⟨List.map_eq_nil_iff.mp same, rfl⟩
  | cons t' rest' =>
    obtain ⟨t, rest, rfl, kind, lexeme, more⟩ := exists_cons_of_words same
    exact .inr ⟨t, rest, t', rest', rfl, rfl, kind, lexeme, more⟩

theorem isWordCall_of_words {ts ts' : List Token}
    (same : ts.map Token.word = ts'.map Token.word) : isWordCall ts = isWordCall ts' := by
  obtain ⟨rfl, rfl⟩ | ⟨t, rest, t', rest', rfl, rfl, -, lexeme, same⟩ := cases_of_words same
  · rfl
  obtain ⟨rfl, rfl⟩ | ⟨u, rest, u', rest', rfl, rfl, kind, -, -⟩ := cases_of_words same
  · rfl
  · rw [isWordCall, isWordCall, lexeme, kind]

theorem skipEmptyParens_of_words {ts ts' : List Token}
    (same : ts.map Token.word = ts'.map Token.word) :
    (skipEmptyParens ts).map Token.word = (skipEmptyParens ts').map Token.word := by
  obtain ⟨rfl, rfl⟩ | ⟨t, rest, t', rest', rfl, rfl, kind, -, more⟩ := cases_of_words same
  · rfl
  obtain ⟨rfl, rfl⟩ | ⟨u, rest, u', rest', rfl, rfl, kind', -, last⟩ := cases_of_words more
  · exact same
  · rw [skipEmptyParens, skipEmptyParens, kind, kind']
    split
    · exact last
    · exact same

theorem agrees_parseReference {scope : Scope} {t t' : Token} {rest rest' : List Token}
    (kind : t.kind = t'.kind) (lexeme : t.lexeme = t'.lexeme)
    (same : rest.map Token.word = rest'.map Token.word) :
    Agrees (.ok (parseReference scope t rest)) (.ok (parseReference scope t' rest')) := by
  have name : t.nameValue = t'.nameValue := nameValue_of_words kind lexeme
  obtain ⟨rfl, rfl⟩ | ⟨u, more, u', more', rfl, rfl, kind', lexeme', last⟩ := cases_of_words same
  · rw [parseReference, parseReference, name, kind]
    split
    · split <;> exact .ok _ rfl
    · exact .ok _ rfl
  · rw [parseReference, parseReference, name, kind, kind', lexeme']
    split
    · exact .ok _ last
    · split
      · split <;> exact .ok _ same
      · exact .ok _ same

/-- All rules agree on tokens that say the same, at some fuel. -/
structure Placeless (stop stop' : Position) (fuel : Nat) : Prop where
  expr {ts ts'} (scope : Scope) (same : ts.map Token.word = ts'.map Token.word) :
    Agrees (parseExpr stop fuel scope ts) (parseExpr stop' fuel scope ts')
  bindings {ts ts'} (scope : Scope) (same : ts.map Token.word = ts'.map Token.word) :
    Agrees (parseVariables stop fuel scope ts) (parseVariables stop' fuel scope ts')
  binary {ts ts'} (scope : Scope) (least : Nat) (same : ts.map Token.word = ts'.map Token.word) :
    Agrees (parseBinary stop fuel scope least ts) (parseBinary stop' fuel scope least ts')
  operators {ts ts'} (scope : Scope) (least : Nat) (left : Expr)
    (same : ts.map Token.word = ts'.map Token.word) :
    Agrees (parseOperators stop fuel scope least left ts)
      (parseOperators stop' fuel scope least left ts')
  unary {ts ts'} (scope : Scope) (same : ts.map Token.word = ts'.map Token.word) :
    Agrees (parseUnary stop fuel scope ts) (parseUnary stop' fuel scope ts')
  power {ts ts'} (scope : Scope) (same : ts.map Token.word = ts'.map Token.word) :
    Agrees (parsePower stop fuel scope ts) (parsePower stop' fuel scope ts')
  call {ts ts'} (scope : Scope) (same : ts.map Token.word = ts'.map Token.word) :
    Agrees (parseCall stop fuel scope ts) (parseCall stop' fuel scope ts')
  arguments {ts ts'} (scope : Scope) (same : ts.map Token.word = ts'.map Token.word) :
    Agrees (parseArguments stop fuel scope ts) (parseArguments stop' fuel scope ts')
  moreArguments {ts ts'} (scope : Scope) (same : ts.map Token.word = ts'.map Token.word) :
    Agrees (parseMoreArguments stop fuel scope ts) (parseMoreArguments stop' fuel scope ts')
  primary {ts ts'} (scope : Scope) (same : ts.map Token.word = ts'.map Token.word) :
    Agrees (parsePrimary stop fuel scope ts) (parsePrimary stop' fuel scope ts')

section Rules

variable {stop stop' : Position} {fuel : Nat} {scope : Scope} {ts ts' : List Token}

theorem Placeless.parseExpr (ih : Placeless stop stop' fuel)
    (same : ts.map Token.word = ts'.map Token.word) :
    Agrees (parseExpr stop (fuel + 1) scope ts) (parseExpr stop' (fuel + 1) scope ts') := by
  rw [Dax.parseExpr, Dax.parseExpr, nextIs_of_words same]
  split
  · exact ih.bindings scope same
  · exact ih.binary scope 0 same

theorem Placeless.parseVariables (ih : Placeless stop stop' fuel)
    (same : ts.map Token.word = ts'.map Token.word) :
    Agrees (parseVariables stop (fuel + 1) scope ts)
      (parseVariables stop' (fuel + 1) scope ts') := by
  obtain ⟨rfl, rfl⟩ | ⟨t, rest, t', rest', rfl, rfl, kind, -, more⟩ := cases_of_words same
  · exact agrees_faultAt _ _ _
  unfold Dax.parseVariables
  dsimp only
  rw [kind]
  split
  · obtain ⟨rfl, rfl⟩ | ⟨u, rest, u', rest', rfl, rfl, kind, lexeme, more⟩ := cases_of_words more
    · exact agrees_faultAt _ _ _
    dsimp only
    rw [kind, lexeme]
    split
    · obtain ⟨rfl, rfl⟩ | ⟨v, rest, v', rest', rfl, rfl, kind, -, more⟩ := cases_of_words more
      · exact agrees_faultAt _ _ _
      dsimp only
      rw [kind]
      split
      · refine (ih.binary scope 0 more).bind fun value rest rest' left => ?_
        exact ih.bindings _ left
      · exact agrees_faultAt _ _ _
    · exact agrees_faultAt _ _ _
  · split
    · exact ih.expr scope more
    · exact agrees_faultAt _ _ _

theorem Placeless.parseBinary (ih : Placeless stop stop' fuel) (least : Nat)
    (same : ts.map Token.word = ts'.map Token.word) :
    Agrees (parseBinary stop (fuel + 1) scope least ts)
      (parseBinary stop' (fuel + 1) scope least ts') := by
  rw [Dax.parseBinary, Dax.parseBinary]
  refine (ih.unary scope same).bind fun left rest rest' more => ?_
  exact ih.operators scope least left more

theorem Placeless.parseOperators (ih : Placeless stop stop' fuel) (least : Nat) (left : Expr)
    (same : ts.map Token.word = ts'.map Token.word) :
    Agrees (parseOperators stop (fuel + 1) scope least left ts)
      (parseOperators stop' (fuel + 1) scope least left ts') := by
  obtain ⟨rfl, rfl⟩ | ⟨t, rest, t', rest', rfl, rfl, kind, -, more⟩ := cases_of_words same
  · exact .ok left rfl
  rw [Dax.parseOperators, Dax.parseOperators, kind]
  split
  · exact .ok left same
  · split
    · exact .ok left same
    · refine (ih.binary scope _ more).bind fun right rest rest' more => ?_
      exact ih.operators scope least _ more

theorem Placeless.parseUnary (ih : Placeless stop stop' fuel)
    (same : ts.map Token.word = ts'.map Token.word) :
    Agrees (parseUnary stop (fuel + 1) scope ts) (parseUnary stop' (fuel + 1) scope ts') := by
  obtain ⟨rfl, rfl⟩ | ⟨t, rest, t', rest', rfl, rfl, kind, -, more⟩ := cases_of_words same
  · exact ih.power scope rfl
  rw [Dax.parseUnary, Dax.parseUnary, kind, isWordCall_of_words same]
  split
  · exact (ih.unary scope more).bind fun operand rest rest' more => .ok _ more
  · split
    · exact (ih.unary scope more).bind fun operand rest rest' more => .ok _ more
    · exact ih.power scope same

theorem Placeless.parsePower (ih : Placeless stop stop' fuel)
    (same : ts.map Token.word = ts'.map Token.word) :
    Agrees (parsePower stop (fuel + 1) scope ts) (parsePower stop' (fuel + 1) scope ts') := by
  rw [Dax.parsePower, Dax.parsePower]
  refine (ih.call scope same).bind fun base rest rest' same => ?_
  obtain ⟨rfl, rfl⟩ | ⟨t, rest, t', rest', rfl, rfl, kind, -, more⟩ := cases_of_words same
  · exact .ok base rfl
  dsimp only
  rw [kind]
  split
  · exact (ih.power scope more).bind fun exponent rest rest' more => .ok _ more
  · exact .ok base same

theorem Placeless.parseCall (ih : Placeless stop stop' fuel)
    (same : ts.map Token.word = ts'.map Token.word) :
    Agrees (parseCall stop (fuel + 1) scope ts) (parseCall stop' (fuel + 1) scope ts') := by
  rw [Dax.parseCall, Dax.parseCall]
  refine (ih.primary scope same).bind fun head rest rest' same => ?_
  obtain ⟨rfl, rfl⟩ | ⟨t, rest, t', rest', rfl, rfl, kind, -, more⟩ := cases_of_words same
  · cases head <;> exact .ok _ rfl
  cases head with
  | table name =>
    dsimp only
    rw [kind]
    split
    · refine (ih.arguments scope more).bind fun args rest rest' same => ?_
      obtain ⟨rfl, rfl⟩ | ⟨u, rest, u', rest', rfl, rfl, kind, -, more⟩ := cases_of_words same
      · exact agrees_faultAt _ _ _
      dsimp only
      rw [kind]
      split
      · exact .ok _ more
      · exact agrees_faultAt _ _ _
    · exact .ok _ same
  | _ => exact .ok _ same

theorem Placeless.parseArguments (ih : Placeless stop stop' fuel)
    (same : ts.map Token.word = ts'.map Token.word) :
    Agrees (parseArguments stop (fuel + 1) scope ts)
      (parseArguments stop' (fuel + 1) scope ts') := by
  rw [Dax.parseArguments, Dax.parseArguments, nextIs_of_words same]
  split
  · exact .ok [] same
  · refine (ih.expr scope same).bind fun arg rest rest' same => ?_
    exact (ih.moreArguments scope same).bind fun args rest rest' more => .ok _ more

theorem Placeless.parseMoreArguments (ih : Placeless stop stop' fuel)
    (same : ts.map Token.word = ts'.map Token.word) :
    Agrees (parseMoreArguments stop (fuel + 1) scope ts)
      (parseMoreArguments stop' (fuel + 1) scope ts') := by
  obtain ⟨rfl, rfl⟩ | ⟨t, rest, t', rest', rfl, rfl, kind, -, more⟩ := cases_of_words same
  · exact .ok [] rfl
  rw [Dax.parseMoreArguments, Dax.parseMoreArguments, kind]
  split
  · refine (ih.expr scope more).bind fun arg rest rest' same => ?_
    exact (ih.moreArguments scope same).bind fun args rest rest' more => .ok _ more
  · exact .ok [] same

theorem Placeless.parsePrimary (ih : Placeless stop stop' fuel)
    (same : ts.map Token.word = ts'.map Token.word) :
    Agrees (parsePrimary stop (fuel + 1) scope ts) (parsePrimary stop' (fuel + 1) scope ts') := by
  obtain ⟨rfl, rfl⟩ | ⟨t, rest, t', rest', rfl, rfl, kind, lexeme, more⟩ := cases_of_words same
  · exact agrees_faultAt _ _ _
  have calls := isWordCall_of_words same
  rw [Dax.parsePrimary, Dax.parsePrimary, kind, lexeme, calls]
  split
  · exact .ok _ (skipEmptyParens_of_words more)
  · exact .ok _ (skipEmptyParens_of_words more)
  · exact .ok _ (skipEmptyParens_of_words more)
  · split
    · exact .ok _ more
    · exact .error rfl
  · split
    · exact .ok _ more
    · exact .error rfl
  · exact .ok _ more
  · exact .ok _ more
  · exact agrees_parseReference kind lexeme more
  · exact agrees_parseReference kind lexeme more
  · exact agrees_parseReference kind lexeme more
  · refine (ih.expr scope more).bind fun inner rest rest' same => ?_
    obtain ⟨rfl, rfl⟩ | ⟨u, rest, u', rest', rfl, rfl, kind, -, more⟩ := cases_of_words same
    · exact agrees_faultAt _ _ _
    dsimp only
    rw [kind]
    split
    · exact .ok _ more
    · exact agrees_faultAt _ _ _
  all_goals
    try split
    all_goals first
      | exact .ok _ more
      | exact agrees_faultAt _ _ _

end Rules

/-- **All rules agree on tokens that say the same**, at any fuel. -/
theorem placeless (stop stop' : Position) (fuel : Nat) : Placeless stop stop' fuel := by
  induction fuel with
  | zero =>
    exact ⟨fun _ _ => agrees_faultAt _ _ _, fun _ _ => agrees_faultAt _ _ _,
      fun _ _ _ => agrees_faultAt _ _ _, fun _ _ _ _ => agrees_faultAt _ _ _,
      fun _ _ => agrees_faultAt _ _ _, fun _ _ => agrees_faultAt _ _ _,
      fun _ _ => agrees_faultAt _ _ _, fun _ _ => agrees_faultAt _ _ _,
      fun _ _ => agrees_faultAt _ _ _, fun _ _ => agrees_faultAt _ _ _⟩
  | succ fuel ih =>
    exact ⟨fun _ => ih.parseExpr, fun _ => ih.parseVariables, fun _ => ih.parseBinary,
      fun _ => ih.parseOperators, fun _ => ih.parseUnary, fun _ => ih.parsePower,
      fun _ => ih.parseCall, fun _ => ih.parseArguments, fun _ => ih.parseMoreArguments,
      fun _ => ih.parsePrimary⟩

/-- **Two streams that say the same** are parsed into the same tree or the same fault. -/
theorem agrees_parseExpression {s s' : TokenStream}
    (same : s.body.map Token.word = s'.body.map Token.word) :
    Agrees s.parseExpression s'.parseExpression := by
  have length : s.body.length = s'.body.length := by
    simpa using congrArg List.length same
  rw [TokenStream.parseExpression, TokenStream.parseExpression, length]
  exact (placeless _ _ _).expr [] same

end MeasureSql.Dax
