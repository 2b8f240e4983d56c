import MeasureSql.Sql.Lexeme

/-!
# Rules of a grammar

A small language for grammars that read from left to right.  A rule takes lexemes from the front of
a list; most choices are settled by looking ahead and then stand, and only an attempt goes back.
Phrases nest no deeper than a limit: beyond it the text is refused, even where an attempt could
have gone back.

## Main definitions

* `Rule` — a rule over the phrases `ν` of a grammar.
* `Rule.run` — what a rule leaves of a list of lexemes.
-/

namespace MeasureSql.Sql

/-- A rule of a grammar whose phrases are named by `ν`. -/
inductive Rule (ν : Type) where
  /-- Takes nothing. -/
  | done
  /-- Never applies. -/
  | refuse
  /-- Takes one lexeme that passes a test. -/
  | one (test : Lexeme → Bool)
  /-- One rule after the other. -/
  | both (first second : Rule ν)
  /-- Decides by what lies ahead. -/
  | choose (ahead : List Lexeme → Bool) (yes no : Rule ν)
  /-- Goes back to take the second rule where the first does not apply. -/
  | attempt (first second : Rule ν)
  /-- Repeats a rule as long as what lies ahead passes a test. -/
  | repeated (ahead : List Lexeme → Bool) (body : Rule ν)
  /-- Counts as one level of nesting. -/
  | nested (body : Rule ν)
  /-- Takes a phrase. -/
  | use (phrase : ν)

/-- What comes of running a rule: the lexemes that are left, a mismatch, or too much nesting. -/
inductive Progress where
  | rest (left : List Lexeme)
  | mismatch
  | tooDeep
  deriving DecidableEq, Repr

namespace Rule

variable {ν : Type}

/-- Runs a rule.  The fuel bounds the phrases and repetitions that contain each other, and `room`
the levels of nesting that may still be opened. -/
def run (rules : ν → Rule ν) (fuel : Nat) (rule : Rule ν) (room : Nat) (ls : List Lexeme) :
    Progress :=
  match rule with
  | .done => .rest ls
  | .refuse => .mismatch
  | .one test => match ls with
    | [] => .mismatch
    | l :: left => if test l then .rest left else .mismatch
  | .both first second => match run rules fuel first room ls with
    | .rest left => run rules fuel second room left
    | other => other
  | .choose ahead yes no =>
    if ahead ls then run rules fuel yes room ls else run rules fuel no room ls
  | .attempt first second => match run rules fuel first room ls with
    | .mismatch => run rules fuel second room ls
    | other => other
  | .repeated ahead body =>
    if ahead ls then match fuel with
      | 0 => .tooDeep
      | fuel + 1 => match run rules fuel body room ls with
        | .rest left => run rules fuel (.repeated ahead body) room left
        | other => other
    else .rest ls
  | .nested body => match room with
    | 0 => .tooDeep
    | room + 1 => run rules fuel body room ls
  | .use phrase => match fuel with
    | 0 => .tooDeep
    | fuel + 1 => run rules fuel (rules phrase) room ls
termination_by (fuel, rule)

/-- Rules one after the other. -/
def all (rules : List (Rule ν)) : Rule ν :=
  rules.foldr .both .done

/-- The first rule whose test passes ahead, or else another one. -/
def firstOf (choices : List ((List Lexeme → Bool) × Rule ν)) (otherwise : Rule ν) : Rule ν :=
  choices.foldr (fun (ahead, rule) no => .choose ahead rule no) otherwise

/-- A rule that is left out where the test does not pass ahead. -/
def optional (ahead : List Lexeme → Bool) (rule : Rule ν) : Rule ν :=
  .choose ahead rule .done

end Rule

/-! ## Looking ahead -/

/-- Is the lexeme one of these words? -/
def Lexeme.isWord (words : List String) : Lexeme → Bool
  | .word w => words.contains w
  | _ => false

/-- Is the lexeme one of these marks? -/
def Lexeme.isMark (signs : List String) : Lexeme → Bool
  | .mark s => signs.contains s
  | _ => false

/-- Can the lexeme name something? -/
def Lexeme.isName : Lexeme → Bool
  | .word _ | .name => true
  | _ => false

/-- Can the lexeme name something where a text may, too? -/
def Lexeme.isNameOrText : Lexeme → Bool
  | .word _ | .name | .text => true
  | _ => false

/-- Does the next lexeme pass a test? -/
def next (test : Lexeme → Bool) : List Lexeme → Bool
  | l :: _ => test l
  | [] => false

/-- Do these words come next, one after the other? -/
def nextWords : List String → List Lexeme → Bool
  | [], _ => true
  | w :: words, l :: ls => l == .word w && nextWords words ls
  | _ :: _, [] => false

/-- Is one of these words next? -/
def nextWord (words : List String) : List Lexeme → Bool :=
  next (·.isWord words)

/-- Is one of these marks next? -/
def nextMark (signs : List String) : List Lexeme → Bool :=
  next (·.isMark signs)

end MeasureSql.Sql
