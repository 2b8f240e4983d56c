import MeasureSql.Dax.Parser

/-!
# The grammar of expressions

A run of tokens derives a phrase, such as an expression or a list of arguments, in a scope of
variables.  A phrase carries its tree, so the grammar says which trees a run of tokens has.  The
grammar looks at nothing but the run itself: what follows it plays no part.

```text
expression  ::= bindings | level 0
bindings    ::= VAR identifier '=' (level 0) result
result      ::= bindings | RETURN expression
level n     ::= level n, an operator of level n, level (n + 1)  |  level (n + 1)
level 7     ::= signed
signed      ::= '-' signed | NOT signed | power
power       ::= call | call '^' power
call        ::= primary | callee '(' arguments ')'
```

## Main definitions

* `JoinsAt` — the operators by level, from the loosest.
* `Phrase` — what a run of tokens can be, with its tree.
* `Derives` — the grammar.

## Main results

* `Derives.opening` — how a phrase can begin.
-/

namespace MeasureSql.Dax

/-- The operators between operands, with their level. -/
inductive JoinsAt : TokenKind → BinaryOp → Nat → Prop where
  | or : JoinsAt .or .or 1
  | and : JoinsAt .and .and 2
  | equals : JoinsAt .eq .equals 3
  | notEquals : JoinsAt .notEq .notEquals 3
  | lessThan : JoinsAt .lt .lessThan 4
  | lessEqual : JoinsAt .ltEq .lessEqual 4
  | greaterThan : JoinsAt .gt .greaterThan 4
  | greaterEqual : JoinsAt .gtEq .greaterEqual 4
  | add : JoinsAt .plus .add 5
  | subtract : JoinsAt .minus .subtract 5
  | concat : JoinsAt .ampersand .concat 5
  | multiply : JoinsAt .star .multiply 6
  | divide : JoinsAt .slash .divide 6

/-- The words that stand for a value of their own. -/
inductive IsConstant : TokenKind → Literal → Prop where
  | true : IsConstant .trueWord (.boolean true)
  | false : IsConstant .falseWord (.boolean false)
  | blank : IsConstant .blankWord .blank

/-- The tokens that spell a number or a text. -/
inductive IsSpelled (t : Token) : Literal → Prop where
  | integer {value : Literal} (hkind : t.kind = .integer)
      (hread : readIntegerLiteral? t.lexeme = some value) : IsSpelled t value
  | float {value : Literal} (hkind : t.kind = .float)
      (hread : readFloatLiteral? t.lexeme = some value) : IsSpelled t value
  | string (hkind : t.kind = .string) :
      IsSpelled t (.string (unescape '"' (stripDelimiters t.lexeme)))

/-- The kinds of tokens that are names. -/
def TokenKind.isName (k : TokenKind) : Bool :=
  k == .identifier || k == .quotedIdentifier || k == .keyword

/-- Is the token `AND`, `OR` or `NOT` spelled out? -/
def Token.isOperatorWord (t : Token) : Bool :=
  (t.kind == .and || t.kind == .or || t.kind == .not) && t.lexeme.toList.all Char.isAlpha

/-- The tree of a call: `IF` with two or three arguments is a conditional. -/
inductive IsApplied (name : String) : List Expr → Expr → Prop where
  | ifThen {c a : Expr} (hname : Text.asciiUpper name = "IF") :
      IsApplied name [c, a] (.cond c a none)
  | ifThenElse {c a b : Expr} (hname : Text.asciiUpper name = "IF") :
      IsApplied name [c, a, b] (.cond c a (some b))
  | call {args : List Expr}
      (hname : ¬(Text.asciiUpper name = "IF" ∧ (args.length = 2 ∨ args.length = 3))) :
      IsApplied name args (.call name args)

/-- What a run of tokens can be, with its tree. -/
inductive Phrase where
  | expression (e : Expr)
  /-- Bindings of variables with their result. -/
  | bindings (e : Expr)
  /-- What may follow a binding: more of them, or the result. -/
  | result (e : Expr)
  /-- Operands joined by operators of at least some level. -/
  | level (n : Nat) (e : Expr)
  | signed (e : Expr)
  | power (e : Expr)
  | call (e : Expr)
  /-- What stands in front of the parenthesis of a call. -/
  | callee (name : String)
  | arguments (es : List Expr)
  /-- The arguments after the first, each with a comma in front. -/
  | moreArguments (es : List Expr)
  | primary (e : Expr)

/-- **The grammar**: in a scope, a run of tokens derives a phrase. -/
inductive Derives : Scope → List Token → Phrase → Prop where
  | ofBindings {scope seg e} (h : Derives scope seg (.bindings e)) :
      Derives scope seg (.expression e)
  | ofLevel {scope seg e} (h : Derives scope seg (.level 0 e)) : Derives scope seg (.expression e)
  | bind {scope var name eq seg value rest e} (hvar : var.kind = .varWord)
      (hname : name.kind = .identifier) (heq : eq.kind = .eq)
      (hvalue : Derives scope seg (.level 0 value))
      (hrest : Derives (scope.bind name.lexeme value) rest (.result e)) :
      Derives scope (var :: name :: eq :: (seg ++ rest)) (.bindings e)
  | moreBindings {scope seg e} (h : Derives scope seg (.bindings e)) :
      Derives scope seg (.result e)
  | returned {scope word seg e} (hword : word.kind = .returnWord)
      (h : Derives scope seg (.expression e)) : Derives scope (word :: seg) (.result e)
  | join {scope seg l t op n seg' r} (hl : Derives scope seg (.level n l))
      (hop : JoinsAt t.kind op n) (hr : Derives scope seg' (.level (n + 1) r)) :
      Derives scope (seg ++ t :: seg') (.level n (.binary l op r))
  | next {scope seg n e} (h : Derives scope seg (.level (n + 1) e)) :
      Derives scope seg (.level n e)
  | operand {scope seg e} (h : Derives scope seg (.signed e)) : Derives scope seg (.level 7 e)
  | negate {scope t seg e} (ht : t.kind = .minus) (h : Derives scope seg (.signed e)) :
      Derives scope (t :: seg) (.signed (.unary .negate e))
  | not {scope t seg e} (ht : t.kind = .not) (hnext : nextIs .lParen seg = false)
      (h : Derives scope seg (.signed e)) : Derives scope (t :: seg) (.signed (.unary .not e))
  | unsigned {scope seg e} (h : Derives scope seg (.power e)) : Derives scope seg (.signed e)
  | raise {scope seg base t seg' exponent} (hbase : Derives scope seg (.call base))
      (ht : t.kind = .caret) (hexponent : Derives scope seg' (.power exponent)) :
      Derives scope (seg ++ t :: seg') (.power (.binary base .power exponent))
  | unraised {scope seg e} (h : Derives scope seg (.call e)) : Derives scope seg (.power e)
  | apply {scope seg name left seg' args right e} (hcallee : Derives scope seg (.callee name))
      (hleft : left.kind = .lParen) (hargs : Derives scope seg' (.arguments args))
      (hright : right.kind = .rParen) (happlied : IsApplied name args e) :
      Derives scope (seg ++ left :: (seg' ++ [right])) (.call e)
  | unapplied {scope seg e} (h : Derives scope seg (.primary e)) : Derives scope seg (.call e)
  | namedFunction {scope t} (ht : t.kind = .identifier) :
      Derives scope [t] (.callee t.nameValue)
  | operatorWord {scope} {t : Token} (ht : t.isOperatorWord = true) :
      Derives scope [t] (.callee t.lexeme)
  | bareName {scope seg name} (h : Derives scope seg (.primary (.table name))) :
      Derives scope seg (.callee name)
  | noArguments {scope} : Derives scope [] (.arguments [])
  | someArguments {scope seg e seg' es} (h : Derives scope seg (.expression e))
      (hmore : Derives scope seg' (.moreArguments es)) :
      Derives scope (seg ++ seg') (.arguments (e :: es))
  | noMore {scope} : Derives scope [] (.moreArguments [])
  | more {scope comma seg e seg' es} (hcomma : comma.kind = .comma)
      (h : Derives scope seg (.expression e)) (hmore : Derives scope seg' (.moreArguments es)) :
      Derives scope (comma :: (seg ++ seg')) (.moreArguments (e :: es))
  | constant {scope t value} (h : IsConstant t.kind value) :
      Derives scope [t] (.primary (.literal value))
  | constantCall {scope t left right value} (h : IsConstant t.kind value)
      (hleft : left.kind = .lParen) (hright : right.kind = .rParen) :
      Derives scope [t, left, right] (.primary (.literal value))
  | literal {scope t value} (h : IsSpelled t value) :
      Derives scope [t] (.primary (.literal value))
  | column {scope t} (ht : t.kind = .columnRef) :
      Derives scope [t] (.primary (.column ⟨none, stripDelimiters t.lexeme⟩))
  | qualified {scope t column} (ht : t.kind.isName = true) (hcolumn : column.kind = .columnRef) :
      Derives scope [t, column]
        (.primary (.column ⟨some t.nameValue, stripDelimiters column.lexeme⟩))
  | variable {scope t bound} (ht : t.kind = .identifier)
      (hbound : scope.find? t.nameValue = some bound) :
      Derives scope [t] (.primary (.variable t.nameValue (some bound)))
  | table {scope t} (ht : t.kind.isName = true)
      (hfree : t.kind = .identifier → scope.find? t.nameValue = none) :
      Derives scope [t] (.primary (.table t.nameValue))
  | group {scope left seg right e} (hleft : left.kind = .lParen)
      (h : Derives scope seg (.expression e)) (hright : right.kind = .rParen) :
      Derives scope (left :: (seg ++ [right])) (.primary e)

/-! ## The tables of the grammar -/

/-- The operators of the grammar are those of the parser, level by level. -/
theorem joinsAt_iff {k : TokenKind} {op : BinaryOp} {n : Nat} :
    JoinsAt k op n ↔ k.binaryOp? = some op ∧ op.strength = n := by
  constructor
  · rintro ⟨⟩ <;> exact ⟨rfl, rfl⟩
  · rintro ⟨hop, rfl⟩
    cases k <;> cases hop <;> constructor

/-- An operator has a level below that of operands. -/
theorem strength_lt_seven {k : TokenKind} {op : BinaryOp} (h : k.binaryOp? = some op) :
    op.strength < 7 := by
  cases k <;> cases h <;> decide

/-- The tree of a call is the one that the parser builds. -/
theorem isApplied_iff {name : String} {args : List Expr} {e : Expr} :
    IsApplied name args e ↔ e = callExpr name args := by
  have hsame : Text.sameIgnoringCase name "IF" = true ↔ Text.asciiUpper name = "IF" := by
    simp [Text.sameIgnoringCase, Text.asciiUpper, ← String.toList_inj]
  constructor
  · rintro ⟨⟩
    · next hname => simp [callExpr, hsame.mpr hname]
    · next hname => simp [callExpr, hsame.mpr hname]
    · next hname =>
      unfold callExpr
      split
      · next hif =>
        rw [hsame] at hif
        split
        · simp [hif] at hname
        · simp [hif] at hname
        · rfl
      · rfl
  · rintro rfl
    unfold callExpr
    split
    · next hif =>
      rw [hsame] at hif
      split
      · exact .ifThen hif
      · exact .ifThenElse hif
      · next htwo hthree =>
        refine .call fun ⟨_, hlen⟩ => ?_
        match args, hlen with
        | [c, a], _ => exact htwo c a rfl
        | [c, a, b], _ => exact hthree c a b rfl
    · next hif => exact .call fun ⟨hname, _⟩ => hif (hsame.mpr hname)

/-! ## How a phrase begins -/

theorem nextIs_eq_true {k : TokenKind} {ts : List Token} (h : nextIs k ts = true) :
    ∃ t rest, ts = t :: rest ∧ t.kind = k := by
  cases ts with
  | nil => cases h
  | cons t rest => exact ⟨t, rest, rfl, by simpa [nextIs] using h⟩

/-- The kinds of tokens that a primary can begin with. -/
def TokenKind.opensPrimary : TokenKind → Bool
  | .trueWord | .falseWord | .blankWord | .integer | .float | .string | .columnRef
  | .identifier | .quotedIdentifier | .keyword | .lParen => true
  | _ => false

/-- How a run of tokens begins when it derives a phrase. -/
def Opening : Phrase → List Token → Prop
  | .primary _, seg => ∃ t ts, seg = t :: ts ∧ t.kind.opensPrimary = true
  | .callee _, seg => ∃ t ts, seg = t :: ts ∧
      (t.kind.opensPrimary = true ∨ t.isOperatorWord = true ∧ ts = [])
  | .call _, seg | .power _, seg => ∃ t ts, seg = t :: ts ∧
      (t.kind.opensPrimary = true ∨ t.isOperatorWord = true ∧ nextIs .lParen ts = true)
  | .signed _, seg | .level _ _, seg => ∃ t ts, seg = t :: ts ∧
      (t.kind.opensPrimary = true ∨ t.isOperatorWord = true ∨ t.kind = .not ∨ t.kind = .minus)
  | .expression _, seg => ∃ t ts, seg = t :: ts ∧
      (t.kind.opensPrimary = true ∨ t.isOperatorWord = true ∨ t.kind = .not ∨ t.kind = .minus ∨
        t.kind = .varWord)
  | .bindings _, seg => ∃ t ts, seg = t :: ts ∧ t.kind = .varWord
  | .result _, seg => ∃ t ts, seg = t :: ts ∧ (t.kind = .varWord ∨ t.kind = .returnWord)
  | .moreArguments _, seg => seg = [] ∨ ∃ t ts, seg = t :: ts ∧ t.kind = .comma
  | .arguments _, _ => True

/-- A kind of names opens a primary. -/
theorem opensPrimary_of_isName {k : TokenKind} (h : k.isName = true) : k.opensPrimary = true := by
  cases k <;> first | rfl | cases h

/-- No operand begins with the word for a binding or with a closing parenthesis. -/
theorem kind_of_operand {t : Token} (h : t.kind.opensPrimary = true ∨ t.isOperatorWord = true ∨
    t.kind = .not ∨ t.kind = .minus) : t.kind ≠ .varWord ∧ t.kind ≠ .rParen := by
  revert h
  rw [Token.isOperatorWord]
  cases t.kind <;> simp [TokenKind.opensPrimary]

/-- A word for a value opens a primary. -/
theorem opensPrimary_of_isConstant {k : TokenKind} {value : Literal} (h : IsConstant k value) :
    k.opensPrimary = true := by
  cases h <;> rfl

/-- **How a phrase can begin.** -/
theorem Derives.opening {scope : Scope} {seg : List Token} {phrase : Phrase}
    (h : Derives scope seg phrase) : Opening phrase seg := by
  induction h with
  | ofBindings h ih =>
    obtain ⟨t, ts, rfl, ht⟩ := ih
    exact ⟨t, ts, rfl, by simp [ht]⟩
  | ofLevel h ih =>
    obtain ⟨t, ts, rfl, ht⟩ := ih
    exact ⟨t, ts, rfl, by grind⟩
  | bind hvar hname heq hvalue hrest ihvalue ihrest => exact ⟨_, _, rfl, hvar⟩
  | moreBindings h ih =>
    obtain ⟨t, ts, rfl, ht⟩ := ih
    exact ⟨t, ts, rfl, .inl ht⟩
  | returned hword h ih => exact ⟨_, _, rfl, .inr hword⟩
  | join hl hop hr ihl ihr =>
    obtain ⟨t, ts, rfl, ht⟩ := ihl
    exact ⟨t, _, rfl, ht⟩
  | next h ih => exact ih
  | operand h ih => exact ih
  | negate ht h ih => exact ⟨_, _, rfl, by simp [ht]⟩
  | not ht hnext h ih => exact ⟨_, _, rfl, by simp [ht]⟩
  | unsigned h ih =>
    obtain ⟨t, ts, rfl, ht⟩ := ih
    exact ⟨t, ts, rfl, by grind⟩
  | raise hbase ht hexponent ihbase ihexponent =>
    obtain ⟨t, ts, rfl, ht⟩ := ihbase
    refine ⟨t, _, rfl, ?_⟩
    cases ts with
    | nil => exact .inl (by simpa [nextIs] using ht)
    | cons u ts => exact ht
  | unraised h ih => exact ih
  | apply hcallee hleft hargs hright happlied ihcallee ihargs =>
    obtain ⟨t, ts, rfl, ht | ⟨hword, rfl⟩⟩ := ihcallee
    · exact ⟨t, _, rfl, .inl ht⟩
    · exact ⟨t, _, rfl, .inr ⟨hword, by simp [nextIs, hleft]⟩⟩
  | unapplied h ih =>
    obtain ⟨t, ts, rfl, ht⟩ := ih
    exact ⟨t, ts, rfl, .inl ht⟩
  | namedFunction ht => exact ⟨_, _, rfl, .inl (by rw [ht]; rfl)⟩
  | operatorWord ht => exact ⟨_, _, rfl, .inr ⟨ht, rfl⟩⟩
  | bareName h ih =>
    obtain ⟨t, ts, rfl, ht⟩ := ih
    exact ⟨t, ts, rfl, .inl ht⟩
  | noArguments => trivial
  | someArguments h hmore ih ihmore => trivial
  | noMore => exact .inl rfl
  | more hcomma h hmore ih ihmore => exact .inr ⟨_, _, rfl, hcomma⟩
  | constant h => exact ⟨_, _, rfl, opensPrimary_of_isConstant h⟩
  | constantCall h hleft hright => exact ⟨_, _, rfl, opensPrimary_of_isConstant h⟩
  | literal h => exact ⟨_, _, rfl, by cases h <;> simp_all [TokenKind.opensPrimary]⟩
  | column ht => exact ⟨_, _, rfl, by rw [ht]; rfl⟩
  | qualified ht hcolumn => exact ⟨_, _, rfl, opensPrimary_of_isName ht⟩
  | «variable» ht hbound => exact ⟨_, _, rfl, by rw [ht]; rfl⟩
  | table ht hfree => exact ⟨_, _, rfl, opensPrimary_of_isName ht⟩
  | group hleft h hright ih => exact ⟨_, _, rfl, by rw [hleft]; rfl⟩

end MeasureSql.Dax
