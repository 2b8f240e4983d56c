import Mathlib.Tactic.Common

/-!
# Reading SQL by precedence

How the operators of standard SQL group: the minus sign binds tightest, then `*` and `/`, then `+`
and `-`, then comparisons together with `IS NULL` on one level, then `NOT`, `AND`, `OR` and the
comma.  The reader keeps a stack of what is still open; an operator closes whatever on the stack
binds at least as tightly as it does, so equals group to the left.

A tree keeps the parentheses that were read.  A tree is `Ordered` when every operand binds tightly
enough for its place, and these are the trees that the reader gives: it reads the tokens of an
ordered tree as that tree, and gives no other tree.

## Main definitions

* `Op`, `Sign`, `Tree` — operators, tokens, and what is read.
* `step`, `read` — the reader.
* `Tree.Ordered` — the trees in which every operand binds tightly enough for its place.

## Main results

* `read_yield` — the tokens of an ordered tree are read as that tree.
* `ordered_of_read` — what is read is ordered, and has the tokens that were read.
-/

namespace MeasureSql.Sql.Reading

/-- The operators between two operands; the comma is one of them. -/
inductive Op where
  | comma
  | or
  | and
  | eq
  | ne
  | lt
  | le
  | gt
  | ge
  | add
  | sub
  | mul
  | div
  deriving DecidableEq, Repr

/-- How tightly an operator binds. -/
def Op.level : Op → Nat
  | .comma => 1
  | .or => 2
  | .and => 3
  | .eq | .ne | .lt | .le | .gt | .ge => 5
  | .add | .sub => 6
  | .mul | .div => 7

/-- The level of comparisons, to which `IS NULL` belongs. -/
def comparisonLevel : Nat := 5

/-- The level of `NOT`, between `AND` and the comparisons. -/
def notLevel : Nat := 4

/-- The level of the sign. -/
def signLevel : Nat := 8

/-- The level of what no operator can take apart. -/
def atomLevel : Nat := 9

/-- The tokens of SQL expressions. -/
inductive Sign where
  /-- A name, a number, a quoted text or a word for a value. -/
  | operand (text : String)
  /-- An operator; the minus sign is the same token before an operand and between two. -/
  | infixed (op : Op)
  | not
  | is
  | left
  | right
  | case
  | when
  | then
  | else
  | end
  deriving DecidableEq, Repr

/-- What is read: operations with the parentheses around them. -/
inductive Tree where
  | operand (text : String)
  | neg (e : Tree)
  | not (e : Tree)
  | binary (l : Tree) (op : Op) (r : Tree)
  | isNull (e : Tree) (negated : Bool)
  | paren (e : Tree)
  | call (function : String) (e : Tree)
  | caseWhen (c a b : Tree)
  deriving DecidableEq, Repr

/-- The tokens of a test for `NULL` after its operand. -/
def nullTest (negated : Bool) : List Sign :=
  if negated then [.is, .not, .operand "NULL"] else [.is, .operand "NULL"]

/-- The tokens of a tree. -/
def Tree.yield : Tree → List Sign
  | .operand text => [.operand text]
  | .neg e => .infixed .sub :: e.yield
  | .not e => .not :: e.yield
  | .binary l op r => l.yield ++ .infixed op :: r.yield
  | .isNull e negated => e.yield ++ nullTest negated
  | .paren e => .left :: (e.yield ++ [.right])
  | .call function e => .operand function :: .left :: (e.yield ++ [.right])
  | .caseWhen c a b =>
    .case :: .when :: (c.yield ++ .then :: (a.yield ++ .else :: (b.yield ++ [.end])))

/-! ## The reader -/

/-- What is still open. -/
inductive Frame where
  | neg
  | not
  /-- A left operand with its operator. -/
  | left (l : Tree) (op : Op)
  | paren
  | call (function : String)
  | when
  | then (c : Tree)
  | else (c a : Tree)
  deriving Repr

/-- How tightly what is open binds the operand after it. -/
def Frame.level : Frame → Nat
  | .neg => signLevel
  | .not => notLevel
  | .left _ op => op.level
  | _ => 0

/-- What is open with the operand that it waited for. -/
def Frame.fill : Frame → Tree → Tree
  | .neg, e => .neg e
  | .not, e => .not e
  | .left l op, e => .binary l op e
  | _, e => e

/-- Closes what binds at least as tightly as a level. -/
def close (level : Nat) : List Frame → Tree → List Frame × Tree
  | [], e => ([], e)
  | f :: stack, e => if level ≤ f.level then close level stack (f.fill e) else (f :: stack, e)

/-- What the reader waits for. -/
inductive Phase where
  | operand
  /-- An operator, after an operand. -/
  | after (e : Tree)
  /-- The rest of a test for `NULL`. -/
  | is (e : Tree)
  | isNot (e : Tree)
  /-- The first condition of a conditional. -/
  | case
  deriving Repr

/-- A state of the reader: what is open, the innermost first, and what it waits for. -/
structure State where
  stack : List Frame
  phase : Phase
  deriving Repr

/-- One token where an operand is waited for. -/
def stepOperand (stack : List Frame) : Sign → Option State
  | .operand text => some ⟨stack, .after (.operand text)⟩
  | .infixed .sub => some ⟨.neg :: stack, .operand⟩
  | .not => some ⟨.not :: stack, .operand⟩
  | .left => some ⟨.paren :: stack, .operand⟩
  | .case => some ⟨stack, .case⟩
  | _ => none

/-- One token after an operand. -/
def stepAfter (stack : List Frame) (e : Tree) : Sign → Option State
  | .infixed op => match close op.level stack e with
    | (stack, e) => some ⟨.left e op :: stack, .operand⟩
  | .is => match close comparisonLevel stack e with
    | (stack, e) => some ⟨stack, .is e⟩
  | .left => match e with
    | .operand function => some ⟨.call function :: stack, .operand⟩
    | _ => none
  | .right => match close 1 stack e with
    | (.paren :: stack, e) => some ⟨stack, .after (.paren e)⟩
    | (.call function :: stack, e) => some ⟨stack, .after (.call function e)⟩
    | _ => none
  | .then => match close 1 stack e with
    | (.when :: stack, c) => some ⟨.then c :: stack, .operand⟩
    | _ => none
  | .else => match close 1 stack e with
    | (.then c :: stack, a) => some ⟨.else c a :: stack, .operand⟩
    | _ => none
  | .end => match close 1 stack e with
    | (.else c a :: stack, b) => some ⟨stack, .after (.caseWhen c a b)⟩
    | _ => none
  | _ => none

/-- One token. -/
def step (s : State) (t : Sign) : Option State :=
  match s.phase with
  | .operand => stepOperand s.stack t
  | .after e => stepAfter s.stack e t
  | .is e => match t with
    | .operand text => if text = "NULL" then some ⟨s.stack, .after (.isNull e false)⟩ else none
    | .not => some ⟨s.stack, .isNot e⟩
    | _ => none
  | .isNot e => match t with
    | .operand text => if text = "NULL" then some ⟨s.stack, .after (.isNull e true)⟩ else none
    | _ => none
  | .case => match t with
    | .when => some ⟨.when :: s.stack, .operand⟩
    | _ => none

/-- What has been read at the end of the tokens. -/
def finish (s : State) : Option Tree :=
  match s.phase with
  | .after e => match close 1 s.stack e with
    | ([], e) => some e
    | _ => none
  | _ => none

/-- Reads tokens from a state on. -/
def readFrom (s : State) : List Sign → Option Tree
  | [] => finish s
  | t :: ts => (step s t).bind (readFrom · ts)

/-- **The reader.** -/
def read (ts : List Sign) : Option Tree :=
  readFrom ⟨[], .operand⟩ ts

/-! ## Ordered trees -/

/-- How tightly a tree binds on its left: the least level of the operators that meet what stands
before it. -/
def Tree.leftLevel : Tree → Nat
  | .binary l op _ => min op.level l.leftLevel
  | .isNull e _ => min comparisonLevel e.leftLevel
  | _ => atomLevel

/-- How tightly a tree binds on its right: the least level of what waits for its last operand. -/
def Tree.rightLevel : Tree → Nat
  | .neg e => min signLevel e.rightLevel
  | .not e => min notLevel e.rightLevel
  | .binary _ op r => min op.level r.rightLevel
  | _ => atomLevel

/-- Every operand binds tightly enough for its place. -/
def Tree.Ordered : Tree → Prop
  | .operand _ => True
  | .neg e => e.Ordered ∧ signLevel < e.leftLevel
  | .not e => e.Ordered ∧ notLevel < e.leftLevel
  | .binary l op r => l.Ordered ∧ r.Ordered ∧ op.level ≤ l.rightLevel ∧ op.level < r.leftLevel
  | .isNull e _ => e.Ordered ∧ comparisonLevel ≤ e.rightLevel
  | .paren e => e.Ordered
  | .call _ e => e.Ordered
  | .caseWhen c a b => c.Ordered ∧ a.Ordered ∧ b.Ordered

instance Tree.decidableOrdered : (e : Tree) → Decidable e.Ordered
  | .operand _ => .isTrue trivial
  | .neg e => @instDecidableAnd _ _ e.decidableOrdered _
  | .not e => @instDecidableAnd _ _ e.decidableOrdered _
  | .binary l _ r => @instDecidableAnd _ _ l.decidableOrdered
      (@instDecidableAnd _ _ r.decidableOrdered _)
  | .isNull e _ => @instDecidableAnd _ _ e.decidableOrdered _
  | .paren e => e.decidableOrdered
  | .call _ e => e.decidableOrdered
  | .caseWhen c a b => @instDecidableAnd _ _ c.decidableOrdered
      (@instDecidableAnd _ _ a.decidableOrdered b.decidableOrdered)

/-- The level of the innermost open thing; nothing open binds nothing. -/
def topLevel : List Frame → Nat
  | [] => 0
  | f :: _ => f.level

/-- How much the next token closes: an operator what binds at least as tightly, everything else all
there is, and an opening parenthesis, which would make a call of the operand, nothing. -/
def nextLevel : List Sign → Nat
  | .infixed op :: _ => op.level
  | .is :: _ => comparisonLevel
  | .left :: _ => atomLevel + 1
  | _ => 1

theorem Op.level_pos (op : Op) : 0 < op.level := by
  cases op <;> decide

theorem Op.level_lt (op : Op) : op.level < signLevel := by
  cases op <;> decide

theorem Tree.leftLevel_pos (e : Tree) : 0 < e.leftLevel := by
  induction e with
  | binary l op r ihl ihr => exact Nat.lt_min.mpr ⟨op.level_pos, ihl⟩
  | isNull e negated ih => exact Nat.lt_min.mpr ⟨by decide, ih⟩
  | _ => simp only [leftLevel]; decide

theorem Tree.rightLevel_pos (e : Tree) : 0 < e.rightLevel := by
  induction e with
  | neg e ih => exact Nat.lt_min.mpr ⟨by decide, ih⟩
  | not e ih => exact Nat.lt_min.mpr ⟨by decide, ih⟩
  | binary l op r ihl ihr => exact Nat.lt_min.mpr ⟨op.level_pos, ihr⟩
  | _ => simp only [rightLevel]; decide

theorem Frame.level_lt (f : Frame) : f.level < atomLevel := by
  cases f with
  | left l op => exact Nat.lt_succ_of_lt op.level_lt
  | _ => simp only [level]; decide

theorem topLevel_lt (stack : List Frame) : topLevel stack < atomLevel := by
  cases stack with
  | nil => decide
  | cons f stack => exact f.level_lt

/-- What binds less tightly stays open. -/
theorem close_of_lt {k : Nat} {stack : List Frame} (h : topLevel stack < k) (e : Tree) :
    close k stack e = (stack, e) := by
  cases stack with
  | nil => rfl
  | cons f stack => exact if_neg (Nat.not_le.mpr h)

/-! ## Ordered trees are read -/

/-- What the next token closes may be closed before it. -/
theorem readFrom_fill {f : Frame} {rest : List Sign} (h : nextLevel rest ≤ f.level)
    (stack : List Frame) (e : Tree) :
    readFrom ⟨f :: stack, .after e⟩ rest = readFrom ⟨stack, .after (f.fill e)⟩ rest := by
  cases rest with
  | nil =>
    have hclose : close 1 (f :: stack) e = close 1 stack (f.fill e) := if_pos h
    simp only [readFrom, finish, hclose]
  | cons t rest =>
    have hstep : step ⟨f :: stack, .after e⟩ t = step ⟨stack, .after (f.fill e)⟩ t := by
      cases t with
      | left => exact absurd h (Nat.not_le.mpr (Nat.lt_succ_of_lt f.level_lt))
      | infixed op =>
        have hclose : close op.level (f :: stack) e = close op.level stack (f.fill e) := if_pos h
        simp only [step, stepAfter, hclose]
      | is =>
        have hclose : close comparisonLevel (f :: stack) e =
          close comparisonLevel stack (f.fill e) := if_pos h
        simp only [step, stepAfter, hclose]
      | operand | not | case | when => rfl
      | _ =>
        have hclose : close 1 (f :: stack) e = close 1 stack (f.fill e) := if_pos h
        simp only [step, stepAfter, hclose]
    simp only [readFrom, hstep]

/-- **The tokens of an ordered tree are read as the tree**, on top of what binds less tightly, and
before what binds no more tightly. -/
theorem readFrom_yield {e : Tree} (he : e.Ordered) (stack : List Frame) (rest : List Sign)
    (hstack : topLevel stack < e.leftLevel) (hrest : nextLevel rest ≤ e.rightLevel) :
    readFrom ⟨stack, .operand⟩ (e.yield ++ rest) = readFrom ⟨stack, .after e⟩ rest := by
  induction e generalizing stack rest with
  | operand text => rfl
  | neg e ih =>
    obtain ⟨he, hlevel⟩ := he
    obtain ⟨hsign, hright⟩ := Nat.le_min.mp hrest
    show readFrom ⟨.neg :: stack, .operand⟩ (e.yield ++ rest) = _
    rw [ih he (.neg :: stack) rest hlevel hright, readFrom_fill hsign]
    rfl
  | not e ih =>
    obtain ⟨he, hlevel⟩ := he
    obtain ⟨hnot, hright⟩ := Nat.le_min.mp hrest
    show readFrom ⟨.not :: stack, .operand⟩ (e.yield ++ rest) = _
    rw [ih he (.not :: stack) rest hlevel hright, readFrom_fill hnot]
    rfl
  | binary l op r ihl ihr =>
    obtain ⟨hl, hr, hleft, hright⟩ := he
    obtain ⟨hstackOp, hstackLeft⟩ := Nat.lt_min.mp hstack
    obtain ⟨hrestOp, hrestRight⟩ := Nat.le_min.mp hrest
    simp only [Tree.yield, List.append_assoc, List.cons_append]
    rw [ihl hl stack (.infixed op :: (r.yield ++ rest)) hstackLeft hleft]
    have hstep : step ⟨stack, .after l⟩ (.infixed op) = some ⟨.left l op :: stack, .operand⟩ := by
      simp only [step, stepAfter, close_of_lt hstackOp]
    simp only [readFrom, hstep, Option.bind_some]
    rw [ihr hr (.left l op :: stack) rest hright hrestRight, readFrom_fill hrestOp]
    rfl
  | isNull e negated ih =>
    obtain ⟨he, hright⟩ := he
    obtain ⟨hstackIs, hstackLeft⟩ := Nat.lt_min.mp hstack
    have hnext : nextLevel (nullTest negated ++ rest) ≤ e.rightLevel := by
      cases negated <;> exact hright
    simp only [Tree.yield, List.append_assoc]
    rw [ih he stack _ hstackLeft hnext]
    have hstep : stepAfter stack e .is = some ⟨stack, .is e⟩ := by
      simp only [stepAfter, close_of_lt hstackIs]
    cases negated <;> simp [nullTest, readFrom, step, hstep]
  | paren e ih =>
    show readFrom ⟨.paren :: stack, .operand⟩ (e.yield ++ [.right] ++ rest) = _
    rw [List.append_assoc]
    exact ih he (.paren :: stack) (.right :: rest) e.leftLevel_pos e.rightLevel_pos
  | call function e ih =>
    show readFrom ⟨.call function :: stack, .operand⟩ (e.yield ++ [.right] ++ rest) = _
    rw [List.append_assoc]
    exact ih he (.call function :: stack) (.right :: rest) e.leftLevel_pos e.rightLevel_pos
  | caseWhen c a b ihc iha ihb =>
    obtain ⟨hc, ha, hb⟩ := he
    simp only [Tree.yield, List.cons_append, List.append_assoc]
    have hend := ihb hb (.else c a :: stack) (.end :: rest) b.leftLevel_pos b.rightLevel_pos
    have helse := iha ha (.then c :: stack) (.else :: (b.yield ++ .end :: rest))
      a.leftLevel_pos a.rightLevel_pos
    have hthen := ihc hc (.when :: stack) (.then :: (a.yield ++ .else :: (b.yield ++ .end :: rest)))
      c.leftLevel_pos c.rightLevel_pos
    exact hthen.trans (helse.trans hend)

/-- **Ordered trees are read.** -/
theorem read_yield {e : Tree} (he : e.Ordered) : read e.yield = some e := by
  have hread := readFrom_yield he [] [] e.leftLevel_pos e.rightLevel_pos
  rwa [List.append_nil] at hread

/-! ## What is read is ordered -/

/-- The tokens of what is open. -/
def Frame.yield : Frame → List Sign
  | .neg => [.infixed .sub]
  | .not => [.not]
  | .left l op => l.yield ++ [.infixed op]
  | .paren => [.left]
  | .call function => [.operand function, .left]
  | .when => [.case, .when]
  | .then c => .case :: .when :: (c.yield ++ [.then])
  | .else c a => .case :: .when :: (c.yield ++ .then :: (a.yield ++ [.else]))

/-- The tokens of a stack, from its bottom. -/
def consumed : List Frame → List Sign
  | [] => []
  | f :: stack => consumed stack ++ f.yield

/-- Is everything open ordered as far as it has been read? -/
def Good : List Frame → Prop
  | [] => True
  | f :: stack => Good stack ∧ match f with
    | .left l op => l.Ordered ∧ op.level ≤ l.rightLevel ∧ topLevel stack < l.leftLevel ∧
        topLevel stack < op.level
    | .then c => c.Ordered
    | .else c a => c.Ordered ∧ a.Ordered
    | _ => True

/-- An operand stands where it fits: ordered, and binding more tightly than what it stands on. -/
structure Fits (stack : List Frame) (e : Tree) : Prop where
  good : Good stack
  ordered : e.Ordered
  left : topLevel stack < e.leftLevel

/-- Closing what waits for an operand that fits gives an operand that fits. -/
theorem Fits.fill {f : Frame} {stack : List Frame} {e : Tree} (h : Fits (f :: stack) e)
    (hf : 0 < f.level) {k : Nat} (hk : k ≤ f.level) (hright : k ≤ e.rightLevel) :
    Fits stack (f.fill e) ∧ k ≤ (f.fill e).rightLevel ∧ (f.fill e).yield = f.yield ++ e.yield := by
  obtain ⟨⟨hgood, hframe⟩, hordered, hleft⟩ := h
  have htop := topLevel_lt stack
  cases f with
  | neg => exact ⟨⟨hgood, ⟨hordered, hleft⟩, htop⟩, Nat.le_min.mpr ⟨hk, hright⟩, rfl⟩
  | not => exact ⟨⟨hgood, ⟨hordered, hleft⟩, htop⟩, Nat.le_min.mpr ⟨hk, hright⟩, rfl⟩
  | left l op =>
    obtain ⟨hl, hlevel, hstackLeft, hstackOp⟩ := hframe
    refine ⟨⟨hgood, ⟨hl, hordered, hlevel, hleft⟩, Nat.lt_min.mpr ⟨hstackOp, hstackLeft⟩⟩,
      Nat.le_min.mpr ⟨hk, hright⟩, ?_⟩
    simp [Frame.fill, Tree.yield, Frame.yield]
  | _ => exact absurd hf (Nat.lt_irrefl 0)

/-- A test for `NULL` fits where its operand does, if it binds more tightly than what it stands
on. -/
theorem Fits.isNull {stack : List Frame} {e : Tree} (h : Fits stack e)
    (hright : comparisonLevel ≤ e.rightLevel) (htop : topLevel stack < comparisonLevel)
    (negated : Bool) : Fits stack (.isNull e negated) :=
  ⟨h.good, ⟨h.ordered, hright⟩, Nat.lt_min.mpr ⟨htop, h.left⟩⟩

/-- **Closing keeps what has been read**: the operand still fits, its tokens are those that were
read, and what is left open binds less tightly than what closed it. -/
theorem Fits.close {k : Nat} (hk : 0 < k) {stack : List Frame} {e : Tree} (h : Fits stack e)
    (hright : k ≤ e.rightLevel) :
    Fits (close k stack e).1 (close k stack e).2 ∧ k ≤ (close k stack e).2.rightLevel ∧
      topLevel (close k stack e).1 < k ∧
      consumed (close k stack e).1 ++ (close k stack e).2.yield = consumed stack ++ e.yield := by
  induction stack generalizing e with
  | nil => exact ⟨h, hright, hk, rfl⟩
  | cons f stack ih =>
    rw [Reading.close]
    split
    · next hle =>
      obtain ⟨hfits, hright', hyield⟩ := h.fill (Nat.lt_of_lt_of_le hk hle) hle hright
      obtain ⟨hfits', hright'', htop, hconsumed⟩ := ih hfits hright'
      refine ⟨hfits', hright'', htop, ?_⟩
      rw [hconsumed, hyield, consumed, List.append_assoc]
    · next hlt => exact ⟨h, hright, Nat.not_le.mp hlt, rfl⟩

/-- The state of a reader that has read some tokens. -/
def Sound (s : State) (ts : List Sign) : Prop :=
  match s.phase with
  | .operand => Good s.stack ∧ consumed s.stack = ts
  | .after e => Fits s.stack e ∧ e.rightLevel = atomLevel ∧ consumed s.stack ++ e.yield = ts
  | .is e => Fits s.stack e ∧ comparisonLevel ≤ e.rightLevel ∧ topLevel s.stack < comparisonLevel ∧
      consumed s.stack ++ e.yield ++ [.is] = ts
  | .isNot e => Fits s.stack e ∧ comparisonLevel ≤ e.rightLevel ∧
      topLevel s.stack < comparisonLevel ∧ consumed s.stack ++ e.yield ++ [.is, .not] = ts
  | .case => Good s.stack ∧ consumed s.stack ++ [.case] = ts

/-- One token where an operand is waited for keeps what has been read. -/
theorem Sound.stepOperand {stack : List Frame} {s' : State} {ts : List Sign} {t : Sign}
    (h : Sound ⟨stack, .operand⟩ ts) (hstep : stepOperand stack t = some s') :
    Sound s' (ts ++ [t]) := by
  obtain ⟨hgood, rfl⟩ := h
  have htop := topLevel_lt stack
  unfold Reading.stepOperand at hstep
  split at hstep
  · cases hstep
    exact ⟨⟨hgood, trivial, htop⟩, rfl, rfl⟩
  · cases hstep
    exact ⟨⟨hgood, trivial⟩, rfl⟩
  · cases hstep
    exact ⟨⟨hgood, trivial⟩, rfl⟩
  · cases hstep
    exact ⟨⟨hgood, trivial⟩, rfl⟩
  · cases hstep
    exact ⟨hgood, rfl⟩
  · cases hstep

/-- One token after an operand keeps what has been read. -/
theorem Sound.stepAfter {stack : List Frame} {e : Tree} {s' : State} {ts : List Sign} {t : Sign}
    (h : Sound ⟨stack, .after e⟩ ts) (hstep : stepAfter stack e t = some s') :
    Sound s' (ts ++ [t]) := by
  obtain ⟨hfits, hright, rfl⟩ := h
  have hclosed : ∀ {k : Nat} {stack' : List Frame} {e' : Tree}, 0 < k → k ≤ atomLevel →
      close k stack e = (stack', e') → Fits stack' e' ∧ k ≤ e'.rightLevel ∧ topLevel stack' < k ∧
        consumed stack' ++ e'.yield = consumed stack ++ e.yield := by
    intro k stack' e' hk hle heq
    have hclose := hfits.close hk (hright ▸ hle)
    rwa [heq] at hclose
  cases t with
  | infixed op =>
    rcases heq : close op.level stack e with ⟨stack', e'⟩
    obtain ⟨hfits', hright', htop', hconsumed⟩ :=
      hclosed op.level_pos (Nat.le_of_lt (Nat.lt_succ_of_lt op.level_lt)) heq
    simp only [Reading.stepAfter, heq] at hstep
    cases hstep
    refine ⟨⟨hfits'.good, hfits'.ordered, hright', hfits'.left, htop'⟩, ?_⟩
    rw [← hconsumed, consumed, Frame.yield, List.append_assoc]
  | is =>
    rcases heq : close comparisonLevel stack e with ⟨stack', e'⟩
    obtain ⟨hfits', hright', htop', hconsumed⟩ := hclosed (by decide) (by decide) heq
    simp only [Reading.stepAfter, heq] at hstep
    cases hstep
    exact ⟨hfits', hright', htop', by rw [hconsumed]⟩
  | left =>
    simp only [Reading.stepAfter] at hstep
    split at hstep
    · cases hstep
      exact ⟨⟨hfits.good, trivial⟩, by simp [consumed, Frame.yield, Tree.yield]⟩
    · cases hstep
  | right =>
    simp only [Reading.stepAfter] at hstep
    split at hstep
    · next stack' e' heq =>
      obtain ⟨hfits', -, -, hconsumed⟩ := hclosed (by decide) (by decide) heq
      cases hstep
      refine ⟨⟨hfits'.good.1, hfits'.ordered, topLevel_lt _⟩, rfl, ?_⟩
      rw [← hconsumed]
      simp [consumed, Frame.yield, Tree.yield]
    · next function stack' e' heq =>
      obtain ⟨hfits', -, -, hconsumed⟩ := hclosed (by decide) (by decide) heq
      cases hstep
      refine ⟨⟨hfits'.good.1, hfits'.ordered, topLevel_lt _⟩, rfl, ?_⟩
      rw [← hconsumed]
      simp [consumed, Frame.yield, Tree.yield]
    · cases hstep
  | «then» =>
    simp only [Reading.stepAfter] at hstep
    split at hstep
    · next stack' c heq =>
      obtain ⟨hfits', -, -, hconsumed⟩ := hclosed (by decide) (by decide) heq
      cases hstep
      refine ⟨⟨hfits'.good.1, hfits'.ordered⟩, ?_⟩
      rw [← hconsumed]
      simp [consumed, Frame.yield]
    · cases hstep
  | «else» =>
    simp only [Reading.stepAfter] at hstep
    split at hstep
    · next c stack' a heq =>
      obtain ⟨hfits', -, -, hconsumed⟩ := hclosed (by decide) (by decide) heq
      cases hstep
      refine ⟨⟨hfits'.good.1, hfits'.good.2, hfits'.ordered⟩, ?_⟩
      rw [← hconsumed]
      simp [consumed, Frame.yield]
    · cases hstep
  | «end» =>
    simp only [Reading.stepAfter] at hstep
    split at hstep
    · next c a stack' b heq =>
      obtain ⟨hfits', -, -, hconsumed⟩ := hclosed (by decide) (by decide) heq
      cases hstep
      refine ⟨⟨hfits'.good.1, ⟨hfits'.good.2.1, hfits'.good.2.2, hfits'.ordered⟩, topLevel_lt _⟩,
        rfl, ?_⟩
      rw [← hconsumed]
      simp [consumed, Frame.yield, Tree.yield]
    · cases hstep
  | _ => cases hstep

/-- **One token keeps what has been read.** -/
theorem Sound.step {s s' : State} {ts : List Sign} {t : Sign} (h : Sound s ts)
    (hstep : step s t = some s') : Sound s' (ts ++ [t]) := by
  obtain ⟨stack, phase⟩ := s
  cases phase with
  | operand => exact h.stepOperand hstep
  | after e => exact h.stepAfter hstep
  | is e =>
    obtain ⟨hfits, hright, htop, rfl⟩ := h
    simp only [Reading.step] at hstep
    split at hstep
    · split at hstep
      · next hnull =>
        cases hstep
        exact ⟨hfits.isNull hright htop _, rfl, by simp [Tree.yield, nullTest, hnull]⟩
      · cases hstep
    · cases hstep
      exact ⟨hfits, hright, htop, by simp⟩
    · cases hstep
  | isNot e =>
    obtain ⟨hfits, hright, htop, rfl⟩ := h
    simp only [Reading.step] at hstep
    split at hstep
    · split at hstep
      · next hnull =>
        cases hstep
        exact ⟨hfits.isNull hright htop _, rfl, by simp [Tree.yield, nullTest, hnull]⟩
      · cases hstep
    · cases hstep
  | case =>
    obtain ⟨hgood, rfl⟩ := h
    simp only [Reading.step] at hstep
    split at hstep
    · cases hstep
      exact ⟨⟨hgood, trivial⟩, by simp [consumed, Frame.yield]⟩
    · cases hstep

/-- **A run keeps what has been read**: what is read in the end is ordered and has all the
tokens. -/
theorem Sound.readFrom {s : State} {ts rest : List Sign} {e : Tree} (h : Sound s ts)
    (hread : readFrom s rest = some e) : e.Ordered ∧ e.yield = ts ++ rest := by
  induction rest generalizing s ts with
  | nil =>
    obtain ⟨stack, phase⟩ := s
    simp only [Reading.readFrom, finish] at hread
    split at hread
    · next e' =>
      split at hread
      · next e'' heq =>
        cases hread
        obtain ⟨hfits, hright, rfl⟩ := h
        have hclose := hfits.close (k := 1) (by decide) (by rw [hright]; decide)
        rw [heq] at hclose
        obtain ⟨hfits', -, -, hconsumed⟩ := hclose
        exact ⟨hfits'.ordered, by rw [List.append_nil, ← hconsumed]; rfl⟩
      · cases hread
    · cases hread
  | cons t rest ih =>
    obtain ⟨s', hstep, hrest⟩ := Option.bind_eq_some_iff.mp hread
    obtain ⟨hordered, hyield⟩ := ih (h.step hstep) hrest
    exact ⟨hordered, by rw [hyield, List.append_assoc]; rfl⟩

/-- **What is read is ordered, and has the tokens that were read.** -/
theorem ordered_of_read {ts : List Sign} {e : Tree} (h : read ts = some e) :
    e.Ordered ∧ e.yield = ts := by
  have hstart : Sound ⟨[], .operand⟩ [] := ⟨trivial, rfl⟩
  exact hstart.readFrom h

end MeasureSql.Sql.Reading
