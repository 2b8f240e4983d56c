import MeasureSql.Validation.Issue

/-!
# Balanced parentheses and quotes

Two scans of SQL text.  The scan of parentheses passes over quoted text, where a quote opens it and
the next quote of the same kind closes it.  The scan of quotes also passes over the character after
a backslash, wherever it stands.  Places are byte offsets.

## Main definitions

* `parenFault?` — what is wrong with the parentheses of a text.
* `openQuote?` — the quote that nothing closes.
-/

namespace MeasureSql.Validation

/-- One of the two characters that open and close quoted text. -/
def isQuote (c : Char) : Bool :=
  c == '\x27' || c == '"'

/-- What can be wrong with the parentheses of a text: one closes what nothing opened, or some are
never closed. -/
inductive ParenFault where
  | extraClosing (offset : Nat)
  | unclosed (count : Nat)
  deriving DecidableEq, Repr

/-- The fault of the text from an offset on, with the quote that closes the text being read and the
number of parentheses open so far. -/
def parenFaultFrom (quote : Option Char) (depth offset : Nat) : List Char → Option ParenFault
  | [] => if depth = 0 then none else some (.unclosed depth)
  | c :: rest =>
    let next := offset + c.utf8Size
    match quote with
    | some q => parenFaultFrom (if c == q then none else some q) depth next rest
    | none =>
      if isQuote c then parenFaultFrom (some c) depth next rest
      else if c == '(' then parenFaultFrom none (depth + 1) next rest
      else if c == ')' then
        match depth with
        | 0 => some (.extraClosing offset)
        | outer + 1 => parenFaultFrom none outer next rest
      else parenFaultFrom none depth next rest

/-- What is wrong with the parentheses of a text. -/
def parenFault? (sql : String) : Option ParenFault :=
  parenFaultFrom none 0 0 sql.toList

/-- The quote that is open after the text from an offset on, with its own offset. -/
def openQuoteFrom (quote : Option (Char × Nat)) (offset : Nat) : List Char → Option (Char × Nat)
  | [] => quote
  | '\\' :: [] => quote
  | '\\' :: skipped :: rest => openQuoteFrom quote (offset + 1 + skipped.utf8Size) rest
  | c :: rest =>
    let after := match quote with
      | some (q, start) => if c == q then none else some (q, start)
      | none => if isQuote c then some (c, offset) else none
    openQuoteFrom after (offset + c.utf8Size) rest

/-- The quote of a text that nothing closes, with its offset. -/
def openQuote? (sql : String) : Option (Char × Nat) :=
  openQuoteFrom none 0 sql.toList

/-- A place in a text. -/
def position (offset : Nat) : String :=
  "Position " ++ toString offset

/-- What is said of a fault in the parentheses. -/
def ParenFault.issue : ParenFault → Issue
  | .extraClosing offset =>
    { severity := .error, message := "Unbalanced parentheses: extra closing parenthesis",
      location := some (position offset) }
  | .unclosed count =>
    { severity := .error, message := "Unbalanced parentheses: " ++ toString count ++ " unclosed",
      suggestion := some "Add the missing closing parenthesis" }

/-- The issues with the parentheses of a text. -/
def parenIssues (sql : String) : List Issue :=
  ((parenFault? sql).map ParenFault.issue).toList

/-- What is said of a quote that nothing closes. -/
def openQuoteIssue (quote : Char) (offset : Nat) : Issue :=
  { severity := .error
    message := if quote == '"' then "Unbalanced double quotes" else "Unbalanced single quotes"
    location := some (position offset) }

/-- The issues with the quotes of a text. -/
def quoteIssues (sql : String) : List Issue :=
  ((openQuote? sql).map fun (quote, offset) => openQuoteIssue quote offset).toList

end MeasureSql.Validation
