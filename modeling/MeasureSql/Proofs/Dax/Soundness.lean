import MeasureSql.Proofs.Dax.Grammar

/-!
# What the parser accepts

Whatever the parser takes from the front of the tokens derives the phrase that it was asked for,
with the tree that it returns.  The loop over operators is the heart of it: its left operand has
been derived at some level, and the operator that stands next is not stronger than that level, so
the operand can be joined by it.

## Main definitions

* `Below` — the next operator, if one stands next, is weaker than a level.
* `Reads` — what it means for a result of the parser to be right.
* `Sound` — all rules give right results at some fuel.

## Main results

* `sound` — all rules give right results at any fuel.
-/

namespace MeasureSql.Dax

/-- Is every `NOT` spelled out?  The parser reads a call off the spelling. -/
def Spelled (ts : List Token) : Prop :=
  ∀ t ∈ ts, t.kind = .not → t.lexeme.toList.all Char.isAlpha = true

theorem Spelled.tail {t : Token} {ts : List Token} (h : Spelled (t :: ts)) : Spelled ts :=
  fun u hu => h u (List.mem_cons_of_mem t hu)

theorem Spelled.right {xs ys : List Token} (h : Spelled (xs ++ ys)) : Spelled ys :=
  fun u hu => h u (List.mem_append_right xs hu)

/-- The next operator, if one stands next, is weaker than a level. -/
def Below (n : Nat) (ts : List Token) : Prop :=
  ∀ t ∈ ts.head?, ∀ op ∈ t.kind.binaryOp?, op.strength < n

/-- Every operator is weaker than the operands. -/
theorem below_seven (ts : List Token) : Below 7 ts :=
  fun _ _ _ hop => strength_lt_seven hop

/-- A stronger level can stand in the place of a weaker one. -/
theorem Derives.level_of_le {scope : Scope} {seg : List Token} {e : Expr} {m n : Nat}
    (h : Derives scope seg (.level m e)) (hle : n ≤ m) : Derives scope seg (.level n e) := by
  obtain ⟨k, rfl⟩ := Nat.exists_eq_add_of_le hle
  induction k with
  | zero => exact h
  | succ k ih => exact ih (.next h) (by omega)

/-- A phrase is read off the front of some tokens, and the others are left. -/
def Reads (scope : Scope) (ts : List Token) (phrase : Phrase) (rest : List Token) : Prop :=
  ∃ seg, ts = seg ++ rest ∧ Derives scope seg phrase

/-- All rules read off what they say, at some fuel. -/
structure Sound (stop : Position) (fuel : Nat) : Prop where
  expr {scope ts e rest} (hts : Spelled ts) (h : parseExpr stop fuel scope ts = .ok (e, rest)) :
    Reads scope ts (.expression e) rest
  bindings {scope ts e rest} (hts : Spelled ts)
    (h : parseVariables stop fuel scope ts = .ok (e, rest)) :
    Reads scope ts (.result e) rest ∧
      (nextIs .varWord ts = true → Reads scope ts (.bindings e) rest)
  binary {scope least ts e rest} (hts : Spelled ts) (hleast : least ≤ 7)
    (h : parseBinary stop fuel scope least ts = .ok (e, rest)) :
    Reads scope ts (.level least e) rest ∧ Below least rest
  operators {scope least m seg left ts e rest} (hts : Spelled ts) (hleast : least ≤ m)
    (hleft : Derives scope seg (.level m left)) (hbelow : Below (m + 1) ts)
    (h : parseOperators stop fuel scope least left ts = .ok (e, rest)) :
    Reads scope (seg ++ ts) (.level least e) rest ∧ Below least rest
  unary {scope ts e rest} (hts : Spelled ts)
    (h : parseUnary stop fuel scope ts = .ok (e, rest)) : Reads scope ts (.signed e) rest
  power {scope ts e rest} (hts : Spelled ts)
    (h : parsePower stop fuel scope ts = .ok (e, rest)) : Reads scope ts (.power e) rest
  call {scope ts e rest} (hts : Spelled ts)
    (h : parseCall stop fuel scope ts = .ok (e, rest)) : Reads scope ts (.call e) rest
  arguments {scope ts es rest} (hts : Spelled ts)
    (h : parseArguments stop fuel scope ts = .ok (es, rest)) : Reads scope ts (.arguments es) rest
  moreArguments {scope ts es rest} (hts : Spelled ts)
    (h : parseMoreArguments stop fuel scope ts = .ok (es, rest)) :
    Reads scope ts (.moreArguments es) rest
  primary {scope ts e rest} (hts : Spelled ts)
    (h : parsePrimary stop fuel scope ts = .ok (e, rest)) :
    Reads scope ts (.primary e) rest ∨
      nextIs .lParen rest = true ∧ ∃ name, e = .table name ∧ Reads scope ts (.callee name) rest

/-- A sequence that succeeds succeeds step by step. -/
theorem bind_eq_ok {ε α β : Type} {m : Except ε α} {f : α → Except ε β} {b : β}
    (h : (m >>= f) = .ok b) : ∃ a, m = .ok a ∧ f a = .ok b := by
  cases m with
  | error err => cases h
  | ok a => exact ⟨a, rfl, h⟩

/-- The tokens that a rule leaves are spelled as those it was given. -/
theorem Reads.spelled {scope : Scope} {ts rest : List Token} {phrase : Phrase}
    (h : Reads scope ts phrase rest) (hts : Spelled ts) : Spelled rest := by
  obtain ⟨seg, rfl, -⟩ := h
  exact hts.right

/-! ## One rule at a time -/

section Rules

variable {stop : Position} {fuel : Nat} {scope : Scope} {ts rest : List Token} {e : Expr}

theorem Sound.parseExpr (ih : Sound stop fuel) (hts : Spelled ts)
    (h : parseExpr stop (fuel + 1) scope ts = .ok (e, rest)) :
    Reads scope ts (.expression e) rest := by
  rw [Dax.parseExpr] at h
  split at h
  · next hvar =>
    obtain ⟨seg, hseg, hd⟩ := (ih.bindings hts h).2 hvar
    exact ⟨seg, hseg, .ofBindings hd⟩
  · obtain ⟨⟨seg, hseg, hd⟩, -⟩ := ih.binary hts (by omega) h
    exact ⟨seg, hseg, .ofLevel hd⟩

theorem Sound.parseVariables (ih : Sound stop fuel) (hts : Spelled ts)
    (h : parseVariables stop (fuel + 1) scope ts = .ok (e, rest)) :
    Reads scope ts (.result e) rest ∧
      (nextIs .varWord ts = true → Reads scope ts (.bindings e) rest) := by
  unfold Dax.parseVariables at h
  split at h
  · next t rest₁ =>
    split at h
    · next hvar =>
      -- The binding, then whatever the rest of the block derives in the longer scope.
      split at h
      · next name rest₂ =>
        split at h
        · next hname =>
          split at h
          · next eq rest₃ =>
            split at h
            · next heq =>
              obtain ⟨⟨value, rest₄⟩, hvalue, hrest⟩ := bind_eq_ok h
              obtain ⟨hreads, -⟩ := ih.binary hts.tail.tail.tail (by omega) hvalue
              obtain ⟨seg', rfl, hd'⟩ := (ih.bindings (hreads.spelled hts.tail.tail.tail) hrest).1
              obtain ⟨seg, rfl, hd⟩ := hreads
              have hbind : Derives scope (t :: name :: eq :: (seg ++ seg')) (.bindings e) :=
                .bind (by simpa using hvar) (by simpa using hname) (by simpa using heq) hd hd'
              exact ⟨⟨_, by simp, .moreBindings hbind⟩, fun _ => ⟨_, by simp, hbind⟩⟩
            · cases h
          · cases h
        · cases h
      · cases h
    · next hvar =>
      split at h
      · next hreturn =>
        obtain ⟨seg, rfl, hd⟩ := ih.expr hts.tail h
        refine ⟨⟨t :: seg, rfl, .returned (by simpa using hreturn) hd⟩, fun hnext => ?_⟩
        simp [nextIs] at hnext hvar
        exact absurd hnext hvar
      · cases h
  · cases h

theorem Sound.parseBinary (ih : Sound stop fuel) {least : Nat} (hts : Spelled ts)
    (hleast : least ≤ 7) (h : parseBinary stop (fuel + 1) scope least ts = .ok (e, rest)) :
    Reads scope ts (.level least e) rest ∧ Below least rest := by
  rw [Dax.parseBinary] at h
  obtain ⟨⟨left, rest₁⟩, hleft, hoperators⟩ := bind_eq_ok h
  have hreads := ih.unary hts hleft
  have hrest := hreads.spelled hts
  obtain ⟨seg, rfl, hd⟩ := hreads
  refine ih.operators hrest hleast (.operand hd) (fun t ht op hop => ?_) hoperators
  exact Nat.lt_succ_of_lt (below_seven rest₁ t ht op hop)

/-- **The loop over operators.**  The left operand is derived at a level that no operator after it
exceeds, so each operator that the loop takes can join it. -/
theorem Sound.parseOperators (ih : Sound stop fuel) {least m : Nat} {seg : List Token} {left : Expr}
    (hts : Spelled ts) (hleast : least ≤ m) (hleft : Derives scope seg (.level m left))
    (hbelow : Below (m + 1) ts)
    (h : parseOperators stop (fuel + 1) scope least left ts = .ok (e, rest)) :
    Reads scope (seg ++ ts) (.level least e) rest ∧ Below least rest := by
  unfold Dax.parseOperators at h
  split at h
  · cases h
    exact ⟨⟨seg, rfl, hleft.level_of_le hleast⟩, fun t ht => by cases ht⟩
  · next t rest₁ =>
    split at h
    · next hnone =>
      cases h
      refine ⟨⟨seg, rfl, hleft.level_of_le hleast⟩, fun u hu op hop => ?_⟩
      cases hu
      rw [hnone] at hop
      cases hop
    · next op hop =>
      split at h
      · next hweak =>
        cases h
        refine ⟨⟨seg, rfl, hleft.level_of_le hleast⟩, fun u hu op' hop' => ?_⟩
        cases hu
        rw [hop] at hop'
        cases hop'
        exact hweak
      · next hstrong =>
        obtain ⟨⟨right, rest₂⟩, hright, hoperators⟩ := bind_eq_ok h
        have hop_le : op.strength ≤ m := Nat.le_of_lt_succ (hbelow t rfl op hop)
        obtain ⟨hreads, hbelow'⟩ := ih.binary hts.tail (strength_lt_seven hop) hright
        have hrest := hreads.spelled hts.tail
        obtain ⟨seg', rfl, hd⟩ := hreads
        have hjoin := Derives.join (hleft.level_of_le hop_le) (joinsAt_iff.mpr ⟨hop, rfl⟩) hd
        have hdone := ih.operators hrest (by omega) hjoin hbelow' hoperators
        simpa using hdone

theorem Sound.parseUnary (ih : Sound stop fuel) (hts : Spelled ts)
    (h : parseUnary stop (fuel + 1) scope ts = .ok (e, rest)) :
    Reads scope ts (.signed e) rest := by
  unfold Dax.parseUnary at h
  split at h
  · next t rest₁ =>
    split at h
    · next hminus =>
      obtain ⟨⟨operand, rest₂⟩, hoperand, hok⟩ := bind_eq_ok h
      cases hok
      obtain ⟨seg, rfl, hd⟩ := ih.unary hts.tail hoperand
      exact ⟨t :: seg, rfl, .negate (by simpa using hminus) hd⟩
    · split at h
      · next hnot =>
        simp only [Bool.and_eq_true, beq_iff_eq, Bool.not_eq_true'] at hnot
        obtain ⟨⟨operand, rest₂⟩, hoperand, hok⟩ := bind_eq_ok h
        cases hok
        obtain ⟨seg, rfl, hd⟩ := ih.unary hts.tail hoperand
        refine ⟨t :: seg, rfl, .not hnot.1 ?_ hd⟩
        -- A parenthesis right after the word would have made it a call.
        obtain ⟨u, us, rfl, -⟩ := hd.opening
        have hletters := hts t List.mem_cons_self hnot.1
        simpa [isWordCall, hletters, nextIs] using hnot.2
      · obtain ⟨seg, hseg, hd⟩ := ih.power hts h
        exact ⟨seg, hseg, .unsigned hd⟩
  · obtain ⟨seg, hseg, hd⟩ := ih.power hts h
    exact ⟨seg, hseg, .unsigned hd⟩

theorem Sound.parsePower (ih : Sound stop fuel) (hts : Spelled ts)
    (h : parsePower stop (fuel + 1) scope ts = .ok (e, rest)) : Reads scope ts (.power e) rest := by
  rw [Dax.parsePower] at h
  obtain ⟨⟨base, rest₁⟩, hbase, hrest⟩ := bind_eq_ok h
  have hreads := ih.call hts hbase
  have hspelled := hreads.spelled hts
  obtain ⟨seg, rfl, hd⟩ := hreads
  dsimp only at hrest
  split at hrest
  · next t after =>
    split at hrest
    · next hcaret =>
      obtain ⟨⟨exponent, rest₂⟩, hexponent, hok⟩ := bind_eq_ok hrest
      cases hok
      obtain ⟨seg', rfl, hd'⟩ := ih.power hspelled.tail hexponent
      exact ⟨seg ++ t :: seg', by simp, .raise hd (by simpa using hcaret) hd'⟩
    · cases hrest
      exact ⟨seg, rfl, .unraised hd⟩
  · cases hrest
    exact ⟨seg, rfl, .unraised hd⟩

theorem Sound.parseCall (ih : Sound stop fuel) (hts : Spelled ts)
    (h : parseCall stop (fuel + 1) scope ts = .ok (e, rest)) : Reads scope ts (.call e) rest := by
  rw [Dax.parseCall] at h
  obtain ⟨⟨head, rest₁⟩, hhead, hrest⟩ := bind_eq_ok h
  have hprimary := ih.primary hts hhead
  dsimp only at hrest
  split at hrest
  · next name t rest₂ =>
    split at hrest
    · next hleft =>
      have hcallee : Reads scope ts (.callee name) (t :: rest₂) := by
        rcases hprimary with ⟨seg, hseg, hd⟩ | ⟨-, other, heq, hreads⟩
        · exact ⟨seg, hseg, .bareName hd⟩
        · cases heq
          exact hreads
      have hspelled := hcallee.spelled hts
      obtain ⟨⟨args, rest₃⟩, hargs, hclose⟩ := bind_eq_ok hrest
      obtain ⟨seg', rfl, hd'⟩ := ih.arguments hspelled.tail hargs
      obtain ⟨seg, rfl, hd⟩ := hcallee
      dsimp only at hclose
      split at hclose
      · next u rest₄ =>
        split at hclose
        · next hright =>
          cases hclose
          exact ⟨seg ++ t :: (seg' ++ [u]), by simp,
            .apply hd (by simpa using hleft) hd' (by simpa using hright) (isApplied_iff.mpr rfl)⟩
        · cases hclose
      · cases hclose
    · next hleft =>
      cases hrest
      rcases hprimary with ⟨seg, hseg, hd⟩ | ⟨hnext, -⟩
      · exact ⟨seg, hseg, .unapplied hd⟩
      · exact absurd hnext (by simpa [nextIs] using hleft)
  · next hnot =>
    cases hrest
    rcases hprimary with ⟨seg, hseg, hd⟩ | ⟨hnext, name, rfl, -⟩
    · exact ⟨seg, hseg, .unapplied hd⟩
    · obtain ⟨t, rest₂, rfl, -⟩ := nextIs_eq_true hnext
      exact absurd rfl (hnot name t rest₂ rfl)

theorem Sound.parseArguments (ih : Sound stop fuel) {es : List Expr} (hts : Spelled ts)
    (h : parseArguments stop (fuel + 1) scope ts = .ok (es, rest)) :
    Reads scope ts (.arguments es) rest := by
  rw [Dax.parseArguments] at h
  split at h
  · cases h
    exact ⟨[], rfl, .noArguments⟩
  · obtain ⟨⟨arg, rest₁⟩, harg, hmore⟩ := bind_eq_ok h
    obtain ⟨⟨args, rest₂⟩, hargs, hok⟩ := bind_eq_ok hmore
    cases hok
    have hreads := ih.expr hts harg
    obtain ⟨seg', rfl, hd'⟩ := ih.moreArguments (hreads.spelled hts) hargs
    obtain ⟨seg, rfl, hd⟩ := hreads
    exact ⟨seg ++ seg', by simp, .someArguments hd hd'⟩

theorem Sound.parseMoreArguments (ih : Sound stop fuel) {es : List Expr} (hts : Spelled ts)
    (h : parseMoreArguments stop (fuel + 1) scope ts = .ok (es, rest)) :
    Reads scope ts (.moreArguments es) rest := by
  unfold Dax.parseMoreArguments at h
  split at h
  · next t rest₁ =>
    split at h
    · next hcomma =>
      obtain ⟨⟨arg, rest₂⟩, harg, hmore⟩ := bind_eq_ok h
      obtain ⟨⟨args, rest₃⟩, hargs, hok⟩ := bind_eq_ok hmore
      cases hok
      have hreads := ih.expr hts.tail harg
      obtain ⟨seg', rfl, hd'⟩ := ih.moreArguments (hreads.spelled hts.tail) hargs
      obtain ⟨seg, rfl, hd⟩ := hreads
      exact ⟨t :: (seg ++ seg'), by simp, .more (by simpa using hcomma) hd hd'⟩
    · cases h
      exact ⟨[], rfl, .noMore⟩
  · cases h
    exact ⟨[], rfl, .noMore⟩

/-- A constant is read off with the empty parentheses after it, if there are any. -/
theorem reads_constant {t : Token} {value : Literal} (h : IsConstant t.kind value)
    (ts : List Token) :
    Reads scope (t :: ts) (.primary (.literal value)) (skipEmptyParens ts) := by
  unfold skipEmptyParens
  split
  · next left right rest₁ =>
    split
    · next hparens =>
      simp only [Bool.and_eq_true, beq_iff_eq] at hparens
      exact ⟨[t, left, right], rfl, .constantCall h hparens.1 hparens.2⟩
    · exact ⟨[t], rfl, .constant h⟩
  · exact ⟨[t], rfl, .constant h⟩

/-- A name is read off as what it stands for, unless a parenthesis follows. -/
theorem reads_parseReference {t : Token} (ht : t.kind.isName = true) (ts : List Token) :
    Reads scope (t :: ts) (.primary (parseReference scope t ts).1) (parseReference scope t ts).2 ∨
      nextIs .lParen (parseReference scope t ts).2 = true ∧
        ∃ name, (parseReference scope t ts).1 = .table name ∧
          Reads scope (t :: ts) (.callee name) (parseReference scope t ts).2 := by
  unfold parseReference
  split
  · next u rest₁ =>
    split
    · next hcolumn => exact .inl ⟨[t, u], rfl, .qualified ht (by simpa using hcolumn)⟩
    · split
      · next hid =>
        simp only [Bool.and_eq_true, beq_iff_eq, bne_iff_ne] at hid
        split
        · next bound hbound => exact .inl ⟨[t], rfl, .variable hid.1 hbound⟩
        · next hfree => exact .inl ⟨[t], rfl, .table ht fun _ => hfree⟩
      · next hid =>
        by_cases hkind : t.kind = .identifier
        · have hnext : u.kind = .lParen := by simpa [hkind] using hid
          exact .inr ⟨by simp [nextIs, hnext], t.nameValue, rfl, [t], rfl, .namedFunction hkind⟩
        · exact .inl ⟨[t], rfl, .table ht fun heq => absurd heq hkind⟩
  · split
    · next hid =>
      split
      · next bound hbound => exact .inl ⟨[t], rfl, .variable (by simpa using hid) hbound⟩
      · next hfree => exact .inl ⟨[t], rfl, .table ht fun _ => hfree⟩
    · next hid => exact .inl ⟨[t], rfl, .table ht fun heq => absurd (by simpa using heq) hid⟩

/-- A spelled-out operator is read off as a name when a parenthesis follows. -/
theorem reads_word {t : Token} {ts : List Token} {err : ParseError}
    (hkind : t.kind = .and ∨ t.kind = .or ∨ t.kind = .not)
    (h : (if isWordCall (t :: ts) then Except.ok (Expr.table t.lexeme, ts) else Except.error err)
      = .ok (e, rest)) :
    nextIs .lParen rest = true ∧ ∃ name, e = .table name ∧
      Reads scope (t :: ts) (.callee name) rest := by
  split at h
  · next hcall =>
    cases h
    cases rest with
    | nil => cases hcall
    | cons u rest =>
      simp only [isWordCall, Bool.and_eq_true] at hcall
      refine ⟨hcall.2, t.lexeme, rfl, [t], rfl, .operatorWord ?_⟩
      rcases hkind with hkind | hkind | hkind <;> simp [Token.isOperatorWord, hkind, hcall.1]
  · cases h

theorem Sound.parsePrimary (ih : Sound stop fuel) (hts : Spelled ts)
    (h : parsePrimary stop (fuel + 1) scope ts = .ok (e, rest)) :
    Reads scope ts (.primary e) rest ∨
      nextIs .lParen rest = true ∧
        ∃ name, e = .table name ∧ Reads scope ts (.callee name) rest := by
  unfold Dax.parsePrimary at h
  split at h
  · cases h
  · next t rest₁ =>
    have hreference : t.kind.isName = true → parseReference scope t rest₁ = (e, rest) →
        Reads scope (t :: rest₁) (.primary e) rest ∨ nextIs .lParen rest = true ∧
          ∃ name, e = .table name ∧ Reads scope (t :: rest₁) (.callee name) rest := by
      intro hname heq
      have hreads := @reads_parseReference scope t hname rest₁
      rwa [heq] at hreads
    split at h
    · next hkind =>
      cases h
      exact .inl (reads_constant (hkind ▸ .true) rest₁)
    · next hkind =>
      cases h
      exact .inl (reads_constant (hkind ▸ .false) rest₁)
    · next hkind =>
      cases h
      exact .inl (reads_constant (hkind ▸ .blank) rest₁)
    · next hkind =>
      split at h
      · next value hread =>
        cases h
        exact .inl ⟨[t], rfl, .literal (.integer hkind hread)⟩
      · cases h
    · next hkind =>
      split at h
      · next value hread =>
        cases h
        exact .inl ⟨[t], rfl, .literal (.float hkind hread)⟩
      · cases h
    · next hkind =>
      cases h
      exact .inl ⟨[t], rfl, .literal (.string hkind)⟩
    · next hkind =>
      cases h
      exact .inl ⟨[t], rfl, .column hkind⟩
    · next hkind => exact hreference (by rw [hkind]; rfl) (Except.ok.inj h)
    · next hkind => exact hreference (by rw [hkind]; rfl) (Except.ok.inj h)
    · next hkind => exact hreference (by rw [hkind]; rfl) (Except.ok.inj h)
    · next hkind =>
      obtain ⟨⟨inner, rest₂⟩, hinner, hclose⟩ := bind_eq_ok h
      obtain ⟨seg, rfl, hd⟩ := ih.expr hts.tail hinner
      dsimp only at hclose
      split at hclose
      · next u rest₃ =>
        split at hclose
        · next hright =>
          cases hclose
          exact .inl ⟨t :: (seg ++ [u]), by simp, .group hkind hd (by simpa using hright)⟩
        · cases hclose
      · cases hclose
    · next hkind => exact .inr (reads_word (.inl hkind) h)
    · next hkind => exact .inr (reads_word (.inr (.inl hkind)) h)
    · next hkind => exact .inr (reads_word (.inr (.inr hkind)) h)
    · cases h

end Rules

/-- **All rules read off what they say, at any fuel.** -/
theorem sound (stop : Position) (fuel : Nat) : Sound stop fuel := by
  induction fuel with
  | zero =>
    constructor <;> intros <;> next h => cases h
  | succ fuel ih =>
    exact ⟨ih.parseExpr, ih.parseVariables, ih.parseBinary, ih.parseOperators, ih.parseUnary,
      ih.parsePower, ih.parseCall, ih.parseArguments, ih.parseMoreArguments, ih.parsePrimary⟩

end MeasureSql.Dax
