import MeasureSql.Text.Alphabetic

/-!
# References to environment variables

A text may refer to environment variables, as `$NAME` or as `$\x7bNAME\x7d`.  The text is cut into
pieces once and every reference is replaced by the value of its variable; the value itself is not
looked at again.

## Main definitions

* `Piece` — a character of the text, or a reference.
* `pieces` — the pieces of a text.
* `expand` — the text with the values in place of the references, or the first variable that is not
  set.
-/

namespace MeasureSql.Settings

/-- A character that stands for itself, or a reference to a variable. -/
inductive Piece where
  | plain (c : Char)
  | reference (name : String)
  deriving DecidableEq, Repr

/-- Can the name of a variable without braces hold the character? -/
def isNameChar (c : Char) : Bool :=
  Text.isAlphanumeric c || c == '_'

/-- The pieces of a text.  A name in braces goes to the closing brace, or to the end of the text if
there is none; a dollar sign that no name follows stands for itself. -/
def pieces : List Char → List Piece
  | [] => []
  | '$' :: '\x7b' :: cs =>
    .reference (String.ofList (cs.takeWhile (· != '\x7d')))
      :: pieces ((cs.dropWhile (· != '\x7d')).drop 1)
  | '$' :: cs =>
    if (cs.takeWhile isNameChar).isEmpty then .plain '$' :: pieces cs
    else .reference (String.ofList (cs.takeWhile isNameChar)) :: pieces (cs.dropWhile isNameChar)
  | c :: cs => .plain c :: pieces cs
termination_by cs => cs.length
decreasing_by
  · have := (List.dropWhile_sublist (l := cs) (fun c => c != '\x7d')).length_le
    simp only [List.length_drop, List.length_cons]
    omega
  · simp
  · have := (List.dropWhile_sublist (l := cs) isNameChar).length_le
    simp only [List.length_cons]
    omega
  · simp

/-- The text that a piece stands for, or the variable that is not set. -/
def Piece.value (lookup : String → Option String) : Piece → Except String String
  | .plain c => .ok (String.singleton c)
  | .reference name => match lookup name with
    | some value => .ok value
    | none => .error name

/-- A text with the values of variables in place of the references to them, or the first variable
that is not set. -/
def expand (lookup : String → Option String) (s : String) : Except String String := do
  let values ← (pieces s.toList).mapM (Piece.value lookup)
  .ok (String.join values)

end MeasureSql.Settings
