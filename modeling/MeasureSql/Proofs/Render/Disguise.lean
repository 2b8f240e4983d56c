import MeasureSql.Dax.Expr
import MeasureSql.Proofs.Text.Capitals

/-!
# Names in disguise

The rule of a call is selected by the ASCII capital form of its name and its pattern by the full
one.  A name that only the full mapping takes to `SUMMARIZE`, such as one that begins with a long s,
has the pattern of the grouping without its rule.  This module says which names these are, and which
functions the rendering of an expression comes to at all: the filters of a call that only take other
filters away are not rendered.

## Main definitions

* `Dax.Expr.visited` — the functions that rendering comes to.
* `IsDisguised` — the names with the pattern of the grouping and not its rule.
-/

namespace MeasureSql

open Dax

/-! ## The functions that rendering comes to -/

namespace Dax.Expr

mutual

/-- The functions that rendering an expression comes to. -/
def visited : Expr → List String
  | .literal _ => []
  | .column _ => []
  | .table _ => []
  | .call name args => name :: visitedCall (Text.asciiUpper name) args
  | .binary l _ r => l.visited ++ r.visited
  | .unary _ e => e.visited
  | .variable _ value => visitedOpt value
  | .cond c a e => c.visited ++ a.visited ++ visitedOpt e
  | .measure _ body _ _ => body.visited

/-- The functions that rendering an optional part comes to. -/
def visitedOpt : Option Expr → List String
  | none => []
  | some e => e.visited

/-- The functions that rendering a list of expressions comes to. -/
def visitedAll : List Expr → List String
  | [] => []
  | e :: es => e.visited ++ visitedAll es

/-- The functions that rendering the arguments of a call comes to: some are filters. -/
def visitedCall (upper : String) : List Expr → List String
  | [] => []
  | e :: es => e.visited ++
    if upper = "CALCULATE" ∨ upper = "CALCULATETABLE" then filteredAll es
    else if upper = "TOTALYTD" ∨ upper = "TOTALQTD" ∨ upper = "TOTALMTD" then visitedDates es
    else visitedAll es

/-- The functions that rendering the dates of a total and its filters comes to. -/
def visitedDates : List Expr → List String
  | [] => []
  | dates :: filters => dates.visited ++ filteredAll filters

/-- The functions that putting an expression to the filters comes to: what takes filters away is
not rendered. -/
def filtered : Expr → List String
  | .call name args =>
    if Text.asciiUpper name = "ALL" ∨ Text.asciiUpper name = "REMOVEFILTERS" then []
    else if Text.asciiUpper name = "ALLEXCEPT" then []
    else if Text.asciiUpper name = "KEEPFILTERS" then filteredAll args
    else name :: visitedCall (Text.asciiUpper name) args
  | .literal _ => []
  | .column _ => []
  | .table _ => []
  | .binary l _ r => l.visited ++ r.visited
  | .unary _ e => e.visited
  | .variable _ value => visitedOpt value
  | .cond c a e => c.visited ++ a.visited ++ visitedOpt e
  | .measure _ body _ _ => body.visited

/-- The functions that putting a list of expressions to the filters comes to. -/
def filteredAll : List Expr → List String
  | [] => []
  | e :: es => e.filtered ++ filteredAll es

end

end Dax.Expr

/-! ## Disguised names -/

/-- A name that only the full capital mapping takes to that of the grouping. -/
def IsDisguised (name : String) : Prop :=
  Text.upper name = "SUMMARIZE" ∧ Text.asciiUpper name ≠ "SUMMARIZE"

instance (name : String) : Decidable (IsDisguised name) :=
  inferInstanceAs (Decidable (_ ∧ _))

/-- Is one of the names disguised? -/
def HasDisguised (names : List String) : Prop :=
  ∃ name ∈ names, IsDisguised name

instance (names : List String) : Decidable (HasDisguised names) :=
  inferInstanceAs (Decidable (∃ name ∈ names, IsDisguised name))

@[simp] theorem hasDisguised_nil : ¬HasDisguised [] := by
  simp [HasDisguised]

@[simp] theorem hasDisguised_cons (name : String) (names : List String) :
    HasDisguised (name :: names) ↔ IsDisguised name ∨ HasDisguised names := by
  simp [HasDisguised]

@[simp] theorem hasDisguised_append (xs ys : List String) :
    HasDisguised (xs ++ ys) ↔ HasDisguised xs ∨ HasDisguised ys := by
  simp [HasDisguised, or_and_right, exists_or]

/-- A name whose ASCII capital form is a word of ASCII letters is not disguised. -/
theorem not_isDisguised {name word : String} (h : Text.asciiUpper name = word)
    (hword : word.toList.all Text.isAscii = true) : ¬IsDisguised name := by
  rintro ⟨hupper, hne⟩
  rw [Text.upper_of_asciiUpper h hword] at hupper
  exact hne (h.trans hupper)

end MeasureSql
