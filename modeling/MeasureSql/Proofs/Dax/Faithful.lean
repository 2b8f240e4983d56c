import MeasureSql.Proofs.Dax.Sourced

/-!
# Trees that are written faithfully

The written form of a tree quotes a name that holds a space but escapes nothing, gives a whole float
no point, and sets no parentheses around the operand of a sign or around a signed operand of a
power.  A tree is written faithfully when it has no node at which this matters.

## Main definitions

* `Expr.everywhere` — a condition at every node.
* `Expr.plainNames`, `Expr.singleMinuses`, `Expr.bareExponents`, `Expr.ownShape` — what a node is
  asked for.
* `Expr.isFaithful` — all of it, at every node.

## Main results

* `Expr.isFaithful_eq` — a tree is faithful when each condition holds everywhere.
-/

namespace MeasureSql.Dax

open Text

/-! ## Names -/

/-- Is a name a bare word that stands for itself? -/
def isNameWord (name : String) : Bool :=
  isWord name && [TokenKind.identifier, .keyword].contains (TokenKind.ofWord name)

/-- Is a name a bare word that can be called? -/
def isCalleeWord (name : String) : Bool :=
  isWord name && [TokenKind.identifier, .keyword, .and, .or, .not].contains (TokenKind.ofWord name)

/-- Is the written form of a table name read as the name? -/
def isPlainTable (name : String) : Bool :=
  if name.toList.contains ' ' then standsBetween '\x27' name else isNameWord name

namespace Expr

/-! ## Conditions on nodes -/

mutual

/-- A condition holds at every node. -/
def everywhere (p : Expr → Bool) : Expr → Bool
  | .literal value => p (.literal value)
  | .column ref => p (.column ref)
  | .table name => p (.table name)
  | .call name args => p (.call name args) && everywhereAll p args
  | .binary l op r => p (.binary l op r) && everywhere p l && everywhere p r
  | .unary op e => p (.unary op e) && everywhere p e
  | .variable name value => p (.variable name value) && everywhereOpt p value
  | .cond c t e => p (.cond c t e) && everywhere p c && everywhere p t && everywhereOpt p e
  | .measure name body format description =>
    p (.measure name body format description) && everywhere p body

/-- A condition holds at every node of a list. -/
def everywhereAll (p : Expr → Bool) : List Expr → Bool
  | [] => true
  | e :: es => everywhere p e && everywhereAll p es

/-- A condition holds at every node of an optional part. -/
def everywhereOpt (p : Expr → Bool) : Option Expr → Bool
  | none => true
  | some e => everywhere p e

end

theorem everywhereAll_eq_true {p : Expr → Bool} {es : List Expr} :
    everywhereAll p es = true ↔ ∀ e ∈ es, e.everywhere p = true := by
  induction es with
  | nil => simp [everywhereAll]
  | cons e es ih => simp [everywhereAll, ih]

/-- What holds everywhere holds at the top. -/
theorem self_of_everywhere {p : Expr → Bool} {e : Expr} (h : e.everywhere p = true) :
    p e = true := by
  cases e <;> simp_all [everywhere]

/-- How many signs stand in front, up to a call; `NOT` before a parenthesis is one. -/
def signs : Expr → Nat
  | .unary .negate e => e.signs + 1
  | .unary .not e => if e.isBinary then 0 else e.signs + 1
  | _ => 0

/-- Is it an operand with a sign? -/
def isSigned : Expr → Bool
  | .unary _ _ => true
  | _ => false

/-- Texts and names can be written as they are. -/
def plainNames : Expr → Bool
  | .literal (.string body) => standsBetween '"' body
  | .column ref => ref.table.all isPlainTable
  | .table name => isPlainTable name
  | .call name _ => isCalleeWord name
  | _ => true

/-- No minus sign stands next to another. -/
def singleMinuses : Expr → Bool
  | .unary .negate (.unary .negate _) => false
  | _ => true

/-- No exponent begins with a sign. -/
def bareExponents : Expr → Bool
  | .binary _ .power r => r.signs == 0
  | _ => true

/-- What is written is read as a node of the same shape. -/
def ownShape : Expr → Bool
  | .literal (.float x) => x.staysFloat
  | .binary l .power r => !l.isSigned && !r.isSigned
  | .unary .not e => !e.isBinary
  | _ => true

/-- All that a node is asked for: texts without quotes and backslashes, names that are written as
themselves, floats with a point or beyond 64 bits, powers without signs at their operands, no minus
sign next to another and no `NOT` before a parenthesis. -/
def isFaithfulAt : Expr → Bool
  | .literal (.string body) => standsBetween '"' body
  | .literal (.float x) => x.staysFloat
  | .column ref => ref.table.all isPlainTable
  | .table name => isPlainTable name
  | .call name _ => isCalleeWord name
  | .binary l .power r => !l.isSigned && !r.isSigned
  | .unary .negate (.unary .negate _) => false
  | .unary .not e => !e.isBinary
  | _ => true

/-- **A tree that is written faithfully.** -/
def isFaithful (e : Expr) : Bool :=
  e.everywhere isFaithfulAt

theorem signs_eq_zero_of_isSigned {e : Expr} (single : e.isSigned = false) : e.signs = 0 := by
  cases e with
  | unary => cases single
  | _ => rfl

theorem isFaithfulAt_eq (e : Expr) : e.isFaithfulAt =
    (e.plainNames && e.singleMinuses && e.bareExponents && e.ownShape) := by
  cases e with
  | literal value => cases value <;> simp [isFaithfulAt, plainNames, singleMinuses, bareExponents,
      ownShape]
  | binary l op r =>
    cases op with
    | power =>
      have bare := signs_eq_zero_of_isSigned (e := r)
      cases hr : r.isSigned <;>
        simp_all [isFaithfulAt, plainNames, singleMinuses, bareExponents, ownShape]
    | _ => rfl
  | unary op e =>
    cases op with
    | not => simp [isFaithfulAt, plainNames, singleMinuses, bareExponents, ownShape]
    | negate =>
      cases e with
      | unary op e => cases op <;> rfl
      | _ => rfl
  | _ => simp [isFaithfulAt, plainNames, singleMinuses, bareExponents, ownShape]

theorem everywhereAll_and {p q : Expr → Bool} {es : List Expr}
    (h : ∀ e ∈ es, e.everywhere (fun e => p e && q e) = (e.everywhere p && e.everywhere q)) :
    everywhereAll (fun e => p e && q e) es = (everywhereAll p es && everywhereAll q es) := by
  induction es with
  | nil => rfl
  | cons e es ih =>
    rw [everywhereAll, everywhereAll, everywhereAll, h e (by simp),
      ih fun e he => h e (List.mem_cons_of_mem _ he)]
    ac_rfl

/-- Two conditions hold everywhere when each of them does. -/
theorem everywhere_and (p q : Expr → Bool) {e : Expr} (he : e.IsSourced) :
    e.everywhere (fun e => p e && q e) = (e.everywhere p && e.everywhere q) := by
  induction he with
  | call hname hargs ih =>
    simp only [everywhere, everywhereAll_and ih]
    ac_rfl
  | binary op hl hr ihl ihr =>
    simp only [everywhere, ihl, ihr]
    ac_rfl
  | unary op he ih =>
    simp only [everywhere, ih]
    ac_rfl
  | ifThen hc ht ihc iht =>
    simp only [everywhere, everywhereOpt, ihc, iht, Bool.and_true]
    ac_rfl
  | ifThenElse hc ht he ihc iht ihe =>
    simp only [everywhere, everywhereOpt, ihc, iht, ihe]
    ac_rfl
  | _ => rfl

/-- **A tree is faithful** when each condition holds everywhere. -/
theorem isFaithful_eq {e : Expr} (he : e.IsSourced) : e.isFaithful =
    (e.everywhere plainNames && e.everywhere singleMinuses && e.everywhere bareExponents &&
      e.everywhere ownShape) := by
  have same : isFaithfulAt = fun e =>
      e.plainNames && e.singleMinuses && e.bareExponents && e.ownShape :=
    funext isFaithfulAt_eq
  rw [isFaithful, same, everywhere_and _ _ he, everywhere_and _ _ he, everywhere_and _ _ he]

end Expr

end MeasureSql.Dax
