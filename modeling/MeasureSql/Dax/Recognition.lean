import MeasureSql.Text.Blank
import MeasureSql.Text.CaseMap
import MeasureSql.Text.Identifier

/-!
# Recognizing expressions

A quick test whether a text looks like an expression rather than prose or SQL: a call of a common
function, a name in brackets on one line, or a quoted name with a bracket after it.

## Main definitions

* `looksLikeDax`.
-/

namespace MeasureSql.Dax

/-- Do the characters begin with a word, blanks and a parenthesis? -/
def beginsCall (word cs : List Char) : Bool :=
  word.isPrefixOf cs && ((cs.drop word.length).dropWhile Text.isBlank).head? == some '('

/-- Is a word called somewhere, where a word begins?  `inWord` says whether the character before was
part of a word. -/
def callsWord (word : List Char) (inWord : Bool) : List Char → Bool
  | [] => false
  | c :: cs => (!inWord && beginsCall word (c :: cs)) || callsWord word (Text.isWordChar c) cs

/-- Does a bracket open and another one close later on the same line? -/
def hasBrackets : List Char → Bool
  | [] => false
  | c :: cs => (c == '[' && (cs.takeWhile (· != '\n')).contains ']') || hasBrackets cs

/-- Does a quoted name that is not empty stand right before a bracket? -/
def hasQuotedTable : List Char → Bool
  | [] => false
  | c :: cs =>
    (c == '\x27' && cs.head? != some '\x27'
      && (cs.dropWhile (· != '\x27')).take 2 == ['\x27', '['])
    || hasQuotedTable cs

/-- Does the text look like an expression? -/
def looksLikeDax (text : String) : Bool :=
  let cs := (Text.upper text).toList
  ["SUM", "CALCULATE", "FILTER", "AVERAGE"].any (fun word => callsWord word.toList false cs)
    || hasBrackets cs || hasQuotedTable cs

end MeasureSql.Dax
