import MeasureSql.Proofs.Dax.Grammar

/-!
# What the parser finds

Whatever derives a phrase is read off as that phrase, whatever stands after it, as long as what
stands after it cannot be taken for a part of it.  Operands joined by operators are read off by the
loop over operators, so for them the result is where the loop goes on.

Fuel is counted against the length of the run: ten for each token, and a little for the rules that
are passed without taking one.

## Main definitions

* `Closed` — what stands next cannot be taken for a part of operands of some level.
* `Accepts` — what it means for the parser to read off a phrase.

## Main results

* `Derives.accepts` — the parser reads off every phrase that is derived.
-/

namespace MeasureSql.Dax

/-- What stands next cannot be taken for a part of operands of at least some level. -/
def Closed (n : Nat) (ts : List Token) : Prop :=
  ∀ t ∈ ts.head?, t.kind ≠ .lParen ∧ t.kind ≠ .columnRef ∧ t.kind ≠ .caret ∧
    ∀ op ∈ t.kind.binaryOp?, op.strength < n

theorem closed_nil (n : Nat) : Closed n [] :=
  fun _ ht => by cases ht

/-- The kinds of tokens that end an expression. -/
def TokenKind.endsExpression : TokenKind → Bool
  | .rParen | .comma | .varWord | .returnWord => true
  | _ => false

theorem closed_cons {t : Token} (h : t.kind.endsExpression = true) (n : Nat) (ts : List Token) :
    Closed n (t :: ts) := by
  intro u hu
  cases hu
  revert h
  cases t.kind <;> simp [TokenKind.endsExpression, TokenKind.binaryOp?]

theorem closed_operator {t : Token} {op : BinaryOp} {n : Nat} (h : JoinsAt t.kind op n)
    (ts : List Token) : Closed (n + 1) (t :: ts) := by
  intro u hu
  cases hu
  revert h
  cases t.kind <;> rintro ⟨⟩ <;> simp [TokenKind.binaryOp?, BinaryOp.strength]

theorem Closed.mono {m n : Nat} {ts : List Token} (h : Closed m ts) (hle : m ≤ n) : Closed n ts :=
  fun t ht => ⟨(h t ht).1, (h t ht).2.1, (h t ht).2.2.1,
    fun op hop => Nat.lt_of_lt_of_le ((h t ht).2.2.2 op hop) hle⟩

/-- What stands next does not go on with a primary. -/
def Ends (ts : List Token) : Prop :=
  nextIs .lParen ts = false ∧ nextIs .columnRef ts = false

theorem Closed.ends {n : Nat} {ts : List Token} (h : Closed n ts) : Ends ts := by
  cases ts with
  | nil => exact ⟨rfl, rfl⟩
  | cons t ts =>
    obtain ⟨hleft, hcolumn, -, -⟩ := h t rfl
    exact ⟨by simp [nextIs, hleft], by simp [nextIs, hcolumn]⟩

/-- The parser reads off a phrase, whatever follows that cannot be taken for a part of it. -/
def Accepts (stop : Position) (scope : Scope) (seg : List Token) : Phrase → Prop
  | .expression e => ∀ fuel rest, 10 * seg.length + 5 ≤ fuel → Closed 0 rest →
      parseExpr stop fuel scope (seg ++ rest) = .ok (e, rest)
  | .bindings e | .result e => ∀ fuel rest, 10 * seg.length + 4 ≤ fuel → Closed 0 rest →
      parseVariables stop fuel scope (seg ++ rest) = .ok (e, rest)
  | .level n e => ∀ fuel rest least, 10 * seg.length + 4 ≤ fuel → least ≤ n → Closed (n + 1) rest →
      ∃ fuel', fuel ≤ fuel' + 10 * seg.length + 1 ∧
        parseBinary stop fuel scope least (seg ++ rest) =
          parseOperators stop fuel' scope least e rest
  | .signed e => ∀ fuel rest, 10 * seg.length + 3 ≤ fuel → Closed 7 rest →
      parseUnary stop fuel scope (seg ++ rest) = .ok (e, rest)
  | .power e => ∀ fuel rest, 10 * seg.length + 2 ≤ fuel → Closed 7 rest →
      parsePower stop fuel scope (seg ++ rest) = .ok (e, rest)
  | .call e => ∀ fuel rest, 10 * seg.length + 1 ≤ fuel → Ends rest →
      parseCall stop fuel scope (seg ++ rest) = .ok (e, rest)
  | .callee name => ∀ fuel rest, 10 * seg.length ≤ fuel → nextIs .lParen rest = true →
      parsePrimary stop fuel scope (seg ++ rest) = .ok (.table name, rest)
  | .arguments es => ∀ fuel rest, 10 * seg.length + 6 ≤ fuel → nextIs .rParen rest = true →
      parseArguments stop fuel scope (seg ++ rest) = .ok (es, rest)
  | .moreArguments es => ∀ fuel rest, 10 * seg.length + 1 ≤ fuel → nextIs .rParen rest = true →
      parseMoreArguments stop fuel scope (seg ++ rest) = .ok (es, rest)
  | .primary e => ∀ fuel rest, 10 * seg.length ≤ fuel →
      (nextIs .lParen rest = true → ∃ name, e = .table name) → nextIs .columnRef rest = false →
      parsePrimary stop fuel scope (seg ++ rest) = .ok (e, rest)

section Rules

variable {stop : Position} {scope : Scope} {seg : List Token} {e : Expr}

/-- The loop over operators ends where no operator of its level stands. -/
theorem parseOperators_eq_ok {fuel least : Nat} {rest : List Token} (hfuel : 0 < fuel)
    (h : Closed least rest) : parseOperators stop fuel scope least e rest = .ok (e, rest) := by
  obtain ⟨fuel, rfl⟩ := Nat.exists_eq_add_of_lt hfuel
  rw [Nat.zero_add]
  unfold parseOperators
  cases rest with
  | nil => rfl
  | cons t rest =>
    dsimp only
    split
    · rfl
    · next op hop => rw [if_pos ((h t rfl).2.2.2 op hop)]

/-- Operands before which the loop has nothing left to do are read off whole. -/
theorem Accepts.binary {n least fuel : Nat} {rest : List Token}
    (h : Accepts stop scope seg (.level n e)) (hfuel : 10 * seg.length + 4 ≤ fuel)
    (hleast : least ≤ n) (hrest : Closed least rest) :
    parseBinary stop fuel scope least (seg ++ rest) = .ok (e, rest) := by
  obtain ⟨fuel', hfuel', heq⟩ := h fuel rest least hfuel hleast (hrest.mono (by omega))
  rw [heq]
  exact parseOperators_eq_ok (by omega) hrest

theorem accepts_ofBindings (hopen : Opening (.bindings e) seg)
    (h : Accepts stop scope seg (.bindings e)) : Accepts stop scope seg (.expression e) := by
  intro fuel rest hfuel hrest
  obtain ⟨fuel, rfl⟩ := Nat.exists_eq_add_of_lt (show 0 < fuel by omega)
  obtain ⟨t, ts, rfl, ht⟩ := hopen
  rw [Nat.zero_add, parseExpr, if_pos (by simp [nextIs, ht])]
  exact h fuel rest (by omega) hrest

theorem accepts_ofLevel (hopen : Opening (.level 0 e) seg)
    (h : Accepts stop scope seg (.level 0 e)) : Accepts stop scope seg (.expression e) := by
  intro fuel rest hfuel hrest
  obtain ⟨fuel, rfl⟩ := Nat.exists_eq_add_of_lt (show 0 < fuel by omega)
  obtain ⟨t, ts, rfl, ht⟩ := hopen
  have hvar : nextIs .varWord (t :: ts ++ rest) = false := by
    simp [nextIs, (kind_of_operand ht).1]
  rw [Nat.zero_add, parseExpr, hvar]
  exact h.binary (by omega) (Nat.le_refl 0) hrest

theorem accepts_bind {var name eq : Token} {value : Expr} {seg' : List Token}
    (hvar : var.kind = .varWord) (hname : name.kind = .identifier) (heq : eq.kind = .eq)
    (hvalue : Accepts stop scope seg (.level 0 value)) (hopen : Opening (.result e) seg')
    (hrest : Accepts stop (scope.bind name.lexeme value) seg' (.result e)) :
    Accepts stop scope (var :: name :: eq :: (seg ++ seg')) (.bindings e) := by
  intro fuel rest hfuel hclosed
  obtain ⟨fuel, rfl⟩ := Nat.exists_eq_add_of_lt (show 0 < fuel by omega)
  simp only [List.length_cons, List.length_append] at hfuel
  have hbinary : parseBinary stop fuel scope 0 (seg ++ (seg' ++ rest)) =
      .ok (value, seg' ++ rest) := by
    obtain ⟨t, ts, rfl, ht⟩ := hopen
    refine hvalue.binary (by omega) (Nat.le_refl 0) (closed_cons ?_ 0 _)
    rcases ht with ht | ht <;> rw [ht] <;> rfl
  have hvariables := hrest fuel rest (by omega) hclosed
  simp only [Nat.zero_add, List.cons_append, List.append_assoc, parseVariables, hvar, hname, heq,
    beq_self_eq_true, if_true]
  rw [hbinary]
  exact hvariables

theorem accepts_returned {word : Token} (hword : word.kind = .returnWord)
    (h : Accepts stop scope seg (.expression e)) :
    Accepts stop scope (word :: seg) (.result e) := by
  intro fuel rest hfuel hclosed
  obtain ⟨fuel, rfl⟩ := Nat.exists_eq_add_of_lt (show 0 < fuel by omega)
  simp only [List.length_cons] at hfuel
  simp only [Nat.zero_add, List.cons_append, parseVariables, hword, beq_self_eq_true, if_true,
    if_neg (show ¬(TokenKind.returnWord == TokenKind.varWord) = true by decide)]
  exact h fuel rest (by omega) hclosed

/-- **An operator joins what stands before it**: the loop that read the left operand goes on with
the right one, which takes no operator of the same level. -/
theorem accepts_join {l r : Expr} {t : Token} {op : BinaryOp} {n : Nat} {seg' : List Token}
    (hl : Accepts stop scope seg (.level n l)) (hop : JoinsAt t.kind op n)
    (hr : Accepts stop scope seg' (.level (n + 1) r)) :
    Accepts stop scope (seg ++ t :: seg') (.level n (.binary l op r)) := by
  intro fuel rest least hfuel hleast hclosed
  simp only [List.length_append, List.length_cons] at hfuel
  obtain ⟨fuel₁, hfuel₁, heq⟩ := hl fuel (t :: (seg' ++ rest)) least (by omega) hleast
    (closed_operator hop _)
  obtain ⟨fuel₂, rfl⟩ := Nat.exists_eq_add_of_lt (show 0 < fuel₁ by omega)
  obtain ⟨hbinaryOp, hstrength⟩ := joinsAt_iff.mp hop
  have hright : parseBinary stop fuel₂ scope (op.strength + 1) (seg' ++ rest) = .ok (r, rest) :=
    hr.binary (by omega) (by omega) (hstrength ▸ hclosed)
  refine ⟨fuel₂, by simp only [List.length_append, List.length_cons]; omega, ?_⟩
  rw [List.append_assoc, List.cons_append, heq, Nat.zero_add]
  conv => lhs; unfold parseOperators
  simp only [hbinaryOp, if_neg (show ¬op.strength < least by omega)]
  rw [hright]
  rfl

theorem accepts_operand (h : Accepts stop scope seg (.signed e)) :
    Accepts stop scope seg (.level 7 e) := by
  intro fuel rest least hfuel hleast hclosed
  obtain ⟨fuel, rfl⟩ := Nat.exists_eq_add_of_lt (show 0 < fuel by omega)
  refine ⟨fuel, by omega, ?_⟩
  have hclosed' : Closed 7 rest := fun t ht =>
    ⟨(hclosed t ht).1, (hclosed t ht).2.1, (hclosed t ht).2.2.1, fun _ hop => strength_lt_seven hop⟩
  rw [Nat.zero_add, parseBinary, h fuel rest (by omega) hclosed']
  rfl

theorem accepts_negate {t : Token} (ht : t.kind = .minus) (h : Accepts stop scope seg (.signed e)) :
    Accepts stop scope (t :: seg) (.signed (.unary .negate e)) := by
  intro fuel rest hfuel hclosed
  obtain ⟨fuel, rfl⟩ := Nat.exists_eq_add_of_lt (show 0 < fuel by omega)
  simp only [List.length_cons] at hfuel
  simp only [Nat.zero_add, List.cons_append, parseUnary, ht, beq_self_eq_true, if_true]
  rw [h fuel rest (by omega) hclosed]
  rfl

theorem accepts_not {t : Token} (ht : t.kind = .not) (hnext : nextIs .lParen seg = false)
    (hopen : Opening (.signed e) seg) (h : Accepts stop scope seg (.signed e)) :
    Accepts stop scope (t :: seg) (.signed (.unary .not e)) := by
  intro fuel rest hfuel hclosed
  obtain ⟨fuel, rfl⟩ := Nat.exists_eq_add_of_lt (show 0 < fuel by omega)
  simp only [List.length_cons] at hfuel
  have hcall : isWordCall (t :: (seg ++ rest)) = false := by
    obtain ⟨u, us, rfl, -⟩ := hopen
    simp only [nextIs] at hnext
    simp [isWordCall, hnext]
  simp only [Nat.zero_add, List.cons_append, parseUnary, ht, hcall,
    if_neg (show ¬(TokenKind.not == TokenKind.minus) = true by decide), beq_self_eq_true,
    Bool.not_false, Bool.and_true, if_true]
  rw [h fuel rest (by omega) hclosed]
  rfl

theorem accepts_unsigned (hopen : Opening (.power e) seg) (h : Accepts stop scope seg (.power e)) :
    Accepts stop scope seg (.signed e) := by
  intro fuel rest hfuel hclosed
  obtain ⟨fuel, rfl⟩ := Nat.exists_eq_add_of_lt (show 0 < fuel by omega)
  have hpower := h fuel rest (by omega) hclosed
  obtain ⟨t, ts, rfl, ht⟩ := hopen
  have hminus : (t.kind == .minus) = false := by
    revert ht
    rw [Token.isOperatorWord]
    cases t.kind <;> simp [TokenKind.opensPrimary]
  have hnot : (t.kind == .not && !isWordCall (t :: (ts ++ rest))) = false := by
    rcases ht with ht | ⟨hword, hnext⟩
    · revert ht
      cases t.kind <;> simp [TokenKind.opensPrimary]
    · obtain ⟨u, us, rfl, hu⟩ := nextIs_eq_true hnext
      simp only [Token.isOperatorWord, Bool.and_eq_true] at hword
      simp [isWordCall, hword.2, hu]
  simp only [Nat.zero_add, List.cons_append, parseUnary, hminus, hnot, Bool.false_eq_true, if_false]
  exact hpower

theorem accepts_raise {base exponent : Expr} {t : Token} {seg' : List Token}
    (hbase : Accepts stop scope seg (.call base)) (ht : t.kind = .caret)
    (hexponent : Accepts stop scope seg' (.power exponent)) :
    Accepts stop scope (seg ++ t :: seg') (.power (.binary base .power exponent)) := by
  intro fuel rest hfuel hclosed
  obtain ⟨fuel, rfl⟩ := Nat.exists_eq_add_of_lt (show 0 < fuel by omega)
  simp only [List.length_append, List.length_cons] at hfuel
  have hcall := hbase fuel (t :: (seg' ++ rest)) (by omega)
    ⟨by simp [nextIs, ht], by simp [nextIs, ht]⟩
  have hpower := hexponent fuel rest (by omega) hclosed
  rw [Nat.zero_add, List.append_assoc, List.cons_append, parsePower, hcall]
  show (if t.kind == .caret then _ else _) = _
  rw [if_pos (by simp [ht]), hpower]
  rfl

theorem accepts_unraised (h : Accepts stop scope seg (.call e)) :
    Accepts stop scope seg (.power e) := by
  intro fuel rest hfuel hclosed
  obtain ⟨fuel, rfl⟩ := Nat.exists_eq_add_of_lt (show 0 < fuel by omega)
  rw [Nat.zero_add, parsePower, h fuel rest (by omega) hclosed.ends]
  cases rest with
  | nil => rfl
  | cons t rest =>
    show (if t.kind == .caret then _ else _) = _
    rw [if_neg (by simpa using (hclosed t rfl).2.2.1)]

theorem accepts_apply {name : String} {args : List Expr} {left right : Token} {seg' : List Token}
    (hcallee : Accepts stop scope seg (.callee name)) (hleft : left.kind = .lParen)
    (hargs : Accepts stop scope seg' (.arguments args)) (hright : right.kind = .rParen)
    (happlied : IsApplied name args e) :
    Accepts stop scope (seg ++ left :: (seg' ++ [right])) (.call e) := by
  intro fuel rest hfuel hends
  obtain ⟨fuel, rfl⟩ := Nat.exists_eq_add_of_lt (show 0 < fuel by omega)
  simp only [List.length_append, List.length_cons, List.length_nil] at hfuel
  have hprimary := hcallee fuel (left :: (seg' ++ right :: rest)) (by omega)
    (by simp [nextIs, hleft])
  have harguments := hargs fuel (right :: rest) (by omega) (by simp [nextIs, hright])
  rw [isApplied_iff.mp happlied, Nat.zero_add]
  simp only [List.append_assoc, List.cons_append, List.nil_append]
  rw [parseCall, hprimary]
  show (if left.kind == .lParen then _ else _) = _
  rw [if_pos (by simp [hleft]), harguments]
  show (if right.kind == .rParen then _ else _) = _
  rw [if_pos (by simp [hright])]

theorem accepts_unapplied (h : Accepts stop scope seg (.primary e)) :
    Accepts stop scope seg (.call e) := by
  intro fuel rest hfuel hends
  obtain ⟨fuel, rfl⟩ := Nat.exists_eq_add_of_lt (show 0 < fuel by omega)
  have hprimary := h fuel rest (by omega)
    (fun hnext => by rw [hends.1] at hnext; cases hnext) hends.2
  rw [Nat.zero_add, parseCall, hprimary]
  simp only [bind, Except.bind]
  split
  · next name t rest =>
    have hleft : ¬(t.kind == .lParen) = true := by simpa [Ends, nextIs] using hends.1
    rw [if_neg hleft]
  · rfl

theorem accepts_noArguments : Accepts stop scope [] (.arguments []) := by
  intro fuel rest hfuel hnext
  obtain ⟨fuel, rfl⟩ := Nat.exists_eq_add_of_lt (show 0 < fuel by omega)
  rw [Nat.zero_add, parseArguments, List.nil_append, if_pos hnext]

/-- What follows an argument ends it. -/
theorem closed_moreArguments {es : List Expr} (hopen : Opening (.moreArguments es) seg)
    {rest : List Token} (hnext : nextIs .rParen rest = true) : Closed 0 (seg ++ rest) := by
  rcases hopen with rfl | ⟨t, ts, rfl, ht⟩
  · obtain ⟨u, us, rfl, hu⟩ := nextIs_eq_true hnext
    exact closed_cons (by rw [hu]; rfl) 0 _
  · exact closed_cons (by rw [ht]; rfl) 0 _

theorem accepts_someArguments {es : List Expr} {seg' : List Token}
    (hopen : Opening (.expression e) seg) (h : Accepts stop scope seg (.expression e))
    (hopenMore : Opening (.moreArguments es) seg')
    (hmore : Accepts stop scope seg' (.moreArguments es)) :
    Accepts stop scope (seg ++ seg') (.arguments (e :: es)) := by
  intro fuel rest hfuel hnext
  obtain ⟨fuel, rfl⟩ := Nat.exists_eq_add_of_lt (show 0 < fuel by omega)
  simp only [List.length_append] at hfuel
  have hexpr := h fuel (seg' ++ rest) (by omega) (closed_moreArguments hopenMore hnext)
  have hrest := hmore fuel rest (by omega) hnext
  have hclose : ¬nextIs .rParen (seg ++ (seg' ++ rest)) = true := by
    obtain ⟨t, ts, rfl, ht⟩ := hopen
    have hkind : t.kind ≠ .rParen := by
      rcases ht with ht | ht | ht | ht | ht
      · exact (kind_of_operand (.inl ht)).2
      · exact (kind_of_operand (.inr (.inl ht))).2
      · simp [ht]
      · simp [ht]
      · simp [ht]
    simpa [nextIs] using hkind
  rw [Nat.zero_add, List.append_assoc, parseArguments, if_neg hclose, hexpr]
  show (parseMoreArguments stop fuel scope (seg' ++ rest) >>= _) = _
  rw [hrest]
  rfl

theorem accepts_noMore : Accepts stop scope [] (.moreArguments []) := by
  intro fuel rest hfuel hnext
  obtain ⟨fuel, rfl⟩ := Nat.exists_eq_add_of_lt (show 0 < fuel by omega)
  obtain ⟨t, ts, rfl, ht⟩ := nextIs_eq_true hnext
  simp [parseMoreArguments, ht]

theorem accepts_more {es : List Expr} {comma : Token} {seg' : List Token}
    (hcomma : comma.kind = .comma) (h : Accepts stop scope seg (.expression e))
    (hopenMore : Opening (.moreArguments es) seg')
    (hmore : Accepts stop scope seg' (.moreArguments es)) :
    Accepts stop scope (comma :: (seg ++ seg')) (.moreArguments (e :: es)) := by
  intro fuel rest hfuel hnext
  obtain ⟨fuel, rfl⟩ := Nat.exists_eq_add_of_lt (show 0 < fuel by omega)
  simp only [List.length_cons, List.length_append] at hfuel
  have hexpr := h fuel (seg' ++ rest) (by omega) (closed_moreArguments hopenMore hnext)
  have hrest := hmore fuel rest (by omega) hnext
  simp only [Nat.zero_add, List.cons_append, List.append_assoc, parseMoreArguments, hcomma,
    beq_self_eq_true, if_true]
  rw [hexpr]
  show (parseMoreArguments stop fuel scope (seg' ++ rest) >>= _) = _
  rw [hrest]
  rfl

/-- A name is handed on to the rule for references. -/
theorem parsePrimary_of_isName {fuel : Nat} {t : Token} (ht : t.kind.isName = true)
    (hfuel : 0 < fuel) (ts : List Token) :
    parsePrimary stop fuel scope (t :: ts) = .ok (parseReference scope t ts) := by
  obtain ⟨fuel, rfl⟩ := Nat.exists_eq_add_of_lt hfuel
  rw [Nat.zero_add, parsePrimary]
  revert ht
  cases t.kind <;> simp [TokenKind.isName]

/-- A constant is handed on without the parentheses after it. -/
theorem parsePrimary_of_isConstant {fuel : Nat} {t : Token} {value : Literal}
    (ht : IsConstant t.kind value) (hfuel : 0 < fuel) (ts : List Token) :
    parsePrimary stop fuel scope (t :: ts) = .ok (.literal value, skipEmptyParens ts) := by
  obtain ⟨fuel, rfl⟩ := Nat.exists_eq_add_of_lt hfuel
  rw [Nat.zero_add, parsePrimary]
  revert ht
  cases t.kind <;> rintro ⟨⟩ <;> rfl

/-- Before a parenthesis a name stands for itself, bound or not. -/
theorem parseReference_of_lParen {t : Token} {ts : List Token} (hnext : nextIs .lParen ts = true) :
    parseReference scope t ts = (.table t.nameValue, ts) := by
  obtain ⟨u, us, rfl, hu⟩ := nextIs_eq_true hnext
  simp [parseReference, hu]

theorem accepts_namedFunction {t : Token} (ht : t.kind = .identifier) :
    Accepts stop scope [t] (.callee t.nameValue) := by
  intro fuel rest hfuel hnext
  simp only [List.length_singleton] at hfuel
  rw [List.singleton_append, parsePrimary_of_isName (by rw [ht]; rfl) (by omega),
    parseReference_of_lParen hnext]

theorem accepts_operatorWord {t : Token} (ht : t.isOperatorWord = true) :
    Accepts stop scope [t] (.callee t.lexeme) := by
  intro fuel rest hfuel hnext
  simp only [List.length_singleton] at hfuel
  obtain ⟨fuel, rfl⟩ := Nat.exists_eq_add_of_lt (show 0 < fuel by omega)
  obtain ⟨u, us, rfl, hu⟩ := nextIs_eq_true hnext
  simp only [Token.isOperatorWord, Bool.and_eq_true, Bool.or_eq_true, beq_iff_eq] at ht
  have hcall : isWordCall (t :: u :: us) = true := by simp [isWordCall, ht.2, hu]
  rw [Nat.zero_add, List.singleton_append, parsePrimary]
  rcases ht.1 with (hkind | hkind) | hkind
  · simp only [hkind, hcall, if_true]
  · simp only [hkind, hcall, if_true]
  · simp only [hkind, hcall, if_true]

theorem accepts_bareName {name : String} (h : Accepts stop scope seg (.primary (.table name))) :
    Accepts stop scope seg (.callee name) := by
  intro fuel rest hfuel hnext
  obtain ⟨u, us, rfl, hu⟩ := nextIs_eq_true hnext
  exact h fuel _ hfuel (fun _ => ⟨name, rfl⟩) (by simp [nextIs, hu])

theorem accepts_constant {t : Token} {value : Literal} (ht : IsConstant t.kind value) :
    Accepts stop scope [t] (.primary (.literal value)) := by
  intro fuel rest hfuel hleft hcolumn
  simp only [List.length_singleton] at hfuel
  have hskip : skipEmptyParens rest = rest := by
    unfold skipEmptyParens
    split
    · next u v rest =>
      refine if_neg fun hparens => ?_
      simp only [Bool.and_eq_true, beq_iff_eq] at hparens
      obtain ⟨name, hname⟩ := hleft (by simp [nextIs, hparens.1])
      cases hname
    · rfl
  rw [List.singleton_append, parsePrimary_of_isConstant ht (by omega), hskip]

theorem accepts_constantCall {t left right : Token} {value : Literal} (ht : IsConstant t.kind value)
    (hleft : left.kind = .lParen) (hright : right.kind = .rParen) :
    Accepts stop scope [t, left, right] (.primary (.literal value)) := by
  intro fuel rest hfuel _ _
  simp only [List.length_cons] at hfuel
  rw [List.cons_append, parsePrimary_of_isConstant ht (by omega)]
  simp [skipEmptyParens, hleft, hright]

theorem accepts_literal {t : Token} {value : Literal} (ht : IsSpelled t value) :
    Accepts stop scope [t] (.primary (.literal value)) := by
  intro fuel rest hfuel _ _
  simp only [List.length_singleton] at hfuel
  obtain ⟨fuel, rfl⟩ := Nat.exists_eq_add_of_lt (show 0 < fuel by omega)
  rw [Nat.zero_add, List.singleton_append, parsePrimary]
  cases ht with
  | integer hkind hread => simp only [hkind, hread]
  | float hkind hread => simp only [hkind, hread]
  | string hkind => simp only [hkind]

theorem accepts_column {t : Token} (ht : t.kind = .columnRef) :
    Accepts stop scope [t] (.primary (.column ⟨none, stripDelimiters t.lexeme⟩)) := by
  intro fuel rest hfuel _ _
  simp only [List.length_singleton] at hfuel
  obtain ⟨fuel, rfl⟩ := Nat.exists_eq_add_of_lt (show 0 < fuel by omega)
  rw [Nat.zero_add, List.singleton_append, parsePrimary]
  simp only [ht]

theorem accepts_qualified {t column : Token} (ht : t.kind.isName = true)
    (hcolumn : column.kind = .columnRef) :
    Accepts stop scope [t, column]
      (.primary (.column ⟨some t.nameValue, stripDelimiters column.lexeme⟩)) := by
  intro fuel rest hfuel _ _
  simp only [List.length_cons] at hfuel
  rw [List.cons_append, parsePrimary_of_isName ht (by omega)]
  simp [parseReference, hcolumn]

theorem accepts_variable {t : Token} {bound : Expr} (ht : t.kind = .identifier)
    (hbound : scope.find? t.nameValue = some bound) :
    Accepts stop scope [t] (.primary (.variable t.nameValue (some bound))) := by
  intro fuel rest hfuel hleft hcolumn
  simp only [List.length_singleton] at hfuel
  rw [List.singleton_append, parsePrimary_of_isName (by rw [ht]; rfl) (by omega)]
  cases rest with
  | nil => simp [parseReference, ht, hbound]
  | cons u rest =>
    have hu : u.kind ≠ .lParen := fun hu => by
      obtain ⟨name, hname⟩ := hleft (by simp [nextIs, hu])
      cases hname
    simp only [nextIs] at hcolumn
    simp [parseReference, ht, hbound, hcolumn, hu]

theorem accepts_table {t : Token} (ht : t.kind.isName = true)
    (hfree : t.kind = .identifier → scope.find? t.nameValue = none) :
    Accepts stop scope [t] (.primary (.table t.nameValue)) := by
  intro fuel rest hfuel _ hcolumn
  simp only [List.length_singleton] at hfuel
  rw [List.singleton_append, parsePrimary_of_isName ht (by omega)]
  cases rest with
  | nil =>
    simp only [parseReference]
    split
    · next hkind => rw [hfree (by simpa using hkind)]
    · rfl
  | cons u rest =>
    simp only [nextIs] at hcolumn
    simp only [parseReference, hcolumn, Bool.false_eq_true, if_false]
    split
    · next hkind =>
      simp only [Bool.and_eq_true, beq_iff_eq] at hkind
      rw [hfree hkind.1]
    · rfl

theorem accepts_group {left right : Token} (hleft : left.kind = .lParen)
    (h : Accepts stop scope seg (.expression e)) (hright : right.kind = .rParen) :
    Accepts stop scope (left :: (seg ++ [right])) (.primary e) := by
  intro fuel rest hfuel _ _
  simp only [List.length_cons, List.length_append, List.length_nil] at hfuel
  obtain ⟨fuel, rfl⟩ := Nat.exists_eq_add_of_lt (show 0 < fuel by omega)
  have hinner := h fuel (right :: rest) (by omega) (closed_cons (by rw [hright]; rfl) 0 _)
  simp only [Nat.zero_add, List.cons_append, List.append_assoc, List.nil_append, parsePrimary,
    hleft]
  rw [hinner]
  show (if right.kind == .rParen then _ else _) = _
  rw [if_pos (by simp [hright])]

end Rules

/-- **The parser reads off every phrase that is derived.** -/
theorem Derives.accepts (stop : Position) {scope : Scope} {seg : List Token} {phrase : Phrase}
    (h : Derives scope seg phrase) : Accepts stop scope seg phrase := by
  induction h with
  | ofBindings h ih => exact accepts_ofBindings h.opening ih
  | ofLevel h ih => exact accepts_ofLevel h.opening ih
  | bind hvar hname heq hvalue hrest ihvalue ihrest =>
    exact accepts_bind hvar hname heq ihvalue hrest.opening ihrest
  | moreBindings h ih => exact ih
  | returned hword h ih => exact accepts_returned hword ih
  | join hl hop hr ihl ihr => exact accepts_join ihl hop ihr
  | next h ih =>
    exact fun fuel rest least hfuel hleast hclosed =>
      ih fuel rest least hfuel (Nat.le_succ_of_le hleast) (hclosed.mono (Nat.le_succ _))
  | operand h ih => exact accepts_operand ih
  | negate ht h ih => exact accepts_negate ht ih
  | not ht hnext h ih => exact accepts_not ht hnext h.opening ih
  | unsigned h ih => exact accepts_unsigned h.opening ih
  | raise hbase ht hexponent ihbase ihexponent => exact accepts_raise ihbase ht ihexponent
  | unraised h ih => exact accepts_unraised ih
  | apply hcallee hleft hargs hright happlied ihcallee ihargs =>
    exact accepts_apply ihcallee hleft ihargs hright happlied
  | unapplied h ih => exact accepts_unapplied ih
  | namedFunction ht => exact accepts_namedFunction ht
  | operatorWord ht => exact accepts_operatorWord ht
  | bareName h ih => exact accepts_bareName ih
  | noArguments => exact accepts_noArguments
  | someArguments h hmore ih ihmore => exact accepts_someArguments h.opening ih hmore.opening ihmore
  | noMore => exact accepts_noMore
  | more hcomma h hmore ih ihmore => exact accepts_more hcomma ih hmore.opening ihmore
  | constant h => exact accepts_constant h
  | constantCall h hleft hright => exact accepts_constantCall h hleft hright
  | literal h => exact accepts_literal h
  | column ht => exact accepts_column ht
  | qualified ht hcolumn => exact accepts_qualified ht hcolumn
  | «variable» ht hbound => exact accepts_variable ht hbound
  | table ht hfree => exact accepts_table ht hfree
  | group hleft h hright ih => exact accepts_group hleft ih hright

end MeasureSql.Dax
