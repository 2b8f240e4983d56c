import MeasureSql.Proofs.Sql.Reader

/-!
# Parentheses and grouping

A tree without its parentheses is a grouping.  A run of tokens in which the operands stand in their
order leaves no choice about the parentheses once the grouping is known, so a written tree is read
as its own grouping exactly when it is ordered.

## Main definitions

* `Tree.bare` — a tree without parentheses.
* `grouping` — what is read, without parentheses.

## Main results

* `eq_of_bare_eq` — tokens and grouping determine a tree.
* `grouping_yield_iff` — a tree is read as its own grouping exactly when it is ordered.
-/

namespace MeasureSql.Sql.Reading

/-- A tree without parentheses. -/
def Tree.bare : Tree → Tree
  | .operand text => .operand text
  | .neg e => .neg e.bare
  | .not e => .not e.bare
  | .binary l op r => .binary l.bare op r.bare
  | .isNull e negated => .isNull e.bare negated
  | .paren e => e.bare
  | .call function e => .call function e.bare
  | .caseWhen c a b => .caseWhen c.bare a.bare b.bare

/-- How tokens group, if they can be read. -/
def grouping (ts : List Sign) : Option Tree :=
  (read ts).map Tree.bare

/-- The number of operands of a tree, counted in its tokens. -/
def Tree.operands : Tree → Nat
  | .operand _ => 1
  | .neg e => e.operands
  | .not e => e.operands
  | .binary l _ r => l.operands + r.operands
  | .isNull e _ => e.operands + 1
  | .paren e => e.operands
  | .call _ e => e.operands + 1
  | .caseWhen c a b => c.operands + a.operands + b.operands

/-- Is the token an operand? -/
def Sign.isOperand : Sign → Bool
  | .operand _ => true
  | _ => false

attribute [local simp] Tree.operands Tree.bare

theorem countP_yield (e : Tree) : e.yield.countP Sign.isOperand = e.operands := by
  induction e with
  | isNull e negated ih =>
    cases negated <;> simp [Tree.yield, Tree.operands, nullTest, ih, Sign.isOperand]
  | caseWhen c a b ihc iha ihb =>
    simp [Tree.yield, Tree.operands, ihc, iha, ihb, Sign.isOperand, Nat.add_assoc]
  | binary l op r ihl ihr => simp [Tree.yield, Tree.operands, ihl, ihr, Sign.isOperand]
  | operand text => rfl
  | neg e ih => simpa [Tree.yield, Tree.operands, Sign.isOperand] using ih
  | not e ih => simpa [Tree.yield, Tree.operands, Sign.isOperand] using ih
  | paren e ih => simpa [Tree.yield, Tree.operands, Sign.isOperand] using ih
  | call function e ih => simp [Tree.yield, Tree.operands, ih, Sign.isOperand, List.countP_cons]

theorem operands_bare (e : Tree) : e.bare.operands = e.operands := by
  induction e <;> simp_all [Tree.bare, Tree.operands]

theorem operands_pos (e : Tree) : 0 < e.operands := by
  induction e <;> simp only [Tree.operands] <;> omega

/-- The tokens before the parenthesis that closes, inside a number of open ones. -/
def inner : Nat → List Sign → List Sign
  | _, [] => []
  | 0, .right :: _ => []
  | depth + 1, .right :: ts => .right :: inner depth ts
  | depth, .left :: ts => .left :: inner (depth + 1) ts
  | depth, t :: ts => t :: inner depth ts

/-- The parentheses of a tree are closed inside it. -/
theorem inner_yield (e : Tree) (depth : Nat) (rest : List Sign) :
    inner depth (e.yield ++ rest) = e.yield ++ inner depth rest := by
  induction e generalizing depth rest with
  | isNull e negated ih => cases negated <;> simp [Tree.yield, nullTest, ih, inner]
  | _ => simp_all [Tree.yield, inner]

/-- What stands before a closing parenthesis is determined by it. -/
theorem yield_eq_of_right {a b : Tree} {r s : List Sign}
    (h : a.yield ++ .right :: r = b.yield ++ .right :: s) : a.yield = b.yield := by
  have hinner := congrArg (inner 0) h
  simpa [inner_yield, inner] using hinner

theorem exists_yield_cons (e : Tree) : ∃ t ts, e.yield = t :: ts := by
  cases h : e.yield with
  | nil =>
    have hcount := countP_yield e
    have hpos := operands_pos e
    rw [h, List.countP_nil] at hcount
    omega
  | cons t ts => exact ⟨t, ts, rfl⟩

/-- A tree that begins with a parenthesis is in parentheses, or a smaller one at its front is. -/
theorem exists_paren {e : Tree} {ts : List Sign} (h : e.yield = .left :: ts) :
    ∃ c rest, ts = c.yield ++ .right :: rest ∧ (e = .paren c ∨ c.operands < e.operands) := by
  induction e generalizing ts with
  | paren e ih =>
    cases h
    exact ⟨e, [], rfl, .inl rfl⟩
  | binary l op r ihl ihr =>
    have hr := operands_pos r
    obtain ⟨t, ts', hl⟩ := exists_yield_cons l
    rw [Tree.yield, hl] at h
    cases h
    obtain ⟨c, rest, rfl, hc⟩ := ihl hl
    refine ⟨c, rest ++ .infixed op :: r.yield, by simp, .inr ?_⟩
    rcases hc with rfl | hc
    · simp only [Tree.operands]
      omega
    · simp only [Tree.operands]
      omega
  | isNull e negated ih =>
    obtain ⟨t, ts', he⟩ := exists_yield_cons e
    rw [Tree.yield, he] at h
    cases h
    obtain ⟨c, rest, rfl, hc⟩ := ih he
    refine ⟨c, rest ++ nullTest negated, by simp, .inr ?_⟩
    rcases hc with rfl | hc
    · simp only [Tree.operands]
      omega
    · simp only [Tree.operands]
      omega
  | _ => simp [Tree.yield] at h

/-- Of two trees with the same grouping and the same tokens, both or none are in parentheses: the
parenthesis at the front encloses as many operands in the one as in the other. -/
theorem exists_eq_paren {a b : Tree} {r s : List Sign} (hbare : a.bare = b.bare)
    (h : (Tree.paren a).yield ++ r = b.yield ++ s) : ∃ c, b = .paren c := by
  obtain ⟨t, ts, hb⟩ := exists_yield_cons b
  rw [hb, Tree.yield] at h
  simp only [List.cons_append, List.append_assoc, List.nil_append, List.cons.injEq] at h
  obtain ⟨rfl, h⟩ := h
  obtain ⟨c, rest, rfl, hc⟩ := exists_paren hb
  rcases hc with hc | hc
  · exact ⟨c, hc⟩
  · rw [List.append_assoc, List.cons_append] at h
    have hyield := yield_eq_of_right h
    have hcount : a.operands = c.operands := by rw [← countP_yield, hyield, countP_yield]
    have hsame : a.operands = b.operands := by rw [← operands_bare, hbare, operands_bare]
    omega

/-- **Tokens and grouping determine a tree.** -/
theorem eq_of_bare_eq {a b : Tree} {x y : List Sign} (hbare : a.bare = b.bare)
    (h : a.yield ++ x = b.yield ++ y) : a = b ∧ x = y := by
  induction a generalizing b x y with
  | paren a ih =>
    obtain ⟨c, rfl⟩ := exists_eq_paren (a := a) hbare h
    simp only [Tree.yield, List.cons_append, List.append_assoc, List.nil_append, List.cons.injEq,
      true_and] at h
    obtain ⟨rfl, hrest⟩ := ih (b := c) hbare h
    exact ⟨rfl, (List.cons.inj hrest).2⟩
  | operand text =>
    cases b with
    | operand text' =>
      cases hbare
      exact ⟨rfl, (List.cons.inj h).2⟩
    | paren b => exact absurd (exists_eq_paren (a := b) hbare.symm h.symm) (by simp)
    | _ => cases hbare
  | neg a ih =>
    cases b with
    | neg b =>
      obtain ⟨rfl, hrest⟩ := ih (Tree.neg.inj hbare) (List.cons.inj h).2
      exact ⟨rfl, hrest⟩
    | paren b => exact absurd (exists_eq_paren (a := b) hbare.symm h.symm) (by simp)
    | _ => cases hbare
  | not a ih =>
    cases b with
    | not b =>
      obtain ⟨rfl, hrest⟩ := ih (Tree.not.inj hbare) (List.cons.inj h).2
      exact ⟨rfl, hrest⟩
    | paren b => exact absurd (exists_eq_paren (a := b) hbare.symm h.symm) (by simp)
    | _ => cases hbare
  | binary l op r ihl ihr =>
    cases b with
    | binary l' op' r' =>
      obtain ⟨hl, rfl, hr⟩ := Tree.binary.inj hbare
      simp only [Tree.yield, List.append_assoc, List.cons_append] at h
      obtain ⟨rfl, hright⟩ := ihl hl h
      obtain ⟨rfl, hrest⟩ := ihr hr (List.cons.inj hright).2
      exact ⟨rfl, hrest⟩
    | paren b => exact absurd (exists_eq_paren (a := b) hbare.symm h.symm) (by simp)
    | _ => cases hbare
  | isNull a negated ih =>
    cases b with
    | isNull b negated' =>
      obtain ⟨ha, rfl⟩ := Tree.isNull.inj hbare
      simp only [Tree.yield, List.append_assoc] at h
      obtain ⟨rfl, hrest⟩ := ih ha h
      exact ⟨rfl, List.append_cancel_left hrest⟩
    | paren b => exact absurd (exists_eq_paren (a := b) hbare.symm h.symm) (by simp)
    | _ => cases hbare
  | call function a ih =>
    cases b with
    | call function' b =>
      obtain ⟨rfl, ha⟩ := Tree.call.inj hbare
      simp only [Tree.yield, List.cons_append, List.append_assoc, List.nil_append, List.cons.injEq,
        true_and] at h
      obtain ⟨rfl, hrest⟩ := ih ha h
      exact ⟨rfl, (List.cons.inj hrest).2⟩
    | paren b => exact absurd (exists_eq_paren (a := b) hbare.symm h.symm) (by simp)
    | _ => cases hbare
  | caseWhen c a d ihc iha ihd =>
    cases b with
    | caseWhen c' a' d' =>
      obtain ⟨hc, ha, hd⟩ := Tree.caseWhen.inj hbare
      simp only [Tree.yield, List.cons_append, List.append_assoc, List.nil_append, List.cons.injEq,
        true_and] at h
      obtain ⟨rfl, hthen⟩ := ihc hc h
      obtain ⟨rfl, helse⟩ := iha ha (List.cons.inj hthen).2
      obtain ⟨rfl, hend⟩ := ihd hd (List.cons.inj helse).2
      exact ⟨rfl, (List.cons.inj hend).2⟩
    | paren b => exact absurd (exists_eq_paren (a := b) hbare.symm h.symm) (by simp)
    | _ => cases hbare

/-- **A tree is read as its own grouping exactly when it is ordered.** -/
theorem grouping_yield_iff (e : Tree) : grouping e.yield = some e.bare ↔ e.Ordered := by
  constructor
  · intro h
    obtain ⟨e', hread, hbare⟩ := Option.map_eq_some_iff.mp h
    obtain ⟨hordered, hyield⟩ := ordered_of_read hread
    obtain ⟨rfl, -⟩ := eq_of_bare_eq (x := []) (y := []) hbare (by rw [hyield])
    exact hordered
  · intro h
    rw [grouping, read_yield h, Option.map_some]

end MeasureSql.Sql.Reading
