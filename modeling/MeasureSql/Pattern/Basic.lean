import MeasureSql.Pattern.Template

/-!
# Patterns

How one function of the expression language is written in SQL: a template, the names under which
the arguments are put into it, and what it means for the trust in the result.

## Main definitions

* `Pattern` — the SQL of one function.
* `Pattern.bind` — arguments put to the names of the parameters.
* `Pattern.render` — the SQL of a call.
-/

namespace MeasureSql

/-- What a pattern is about. -/
inductive PatternCategory where
  | aggregation
  | filter
  | timeIntelligence
  | logical
  | math
  | text
  | table
  | relationship
  deriving DecidableEq, Repr, Inhabited

namespace PatternCategory

/-- All categories. -/
def all : List PatternCategory :=
  [.aggregation, .filter, .timeIntelligence, .logical, .math, .text, .table, .relationship]

/-- The name of a category. -/
def name : PatternCategory → String
  | .aggregation => "aggregation"
  | .filter => "filter"
  | .timeIntelligence => "time_intelligence"
  | .logical => "logical"
  | .math => "math"
  | .text => "text"
  | .table => "table"
  | .relationship => "relationship"

/-- The category of that name. -/
def ofName? (s : String) : Option PatternCategory :=
  all.find? (·.name == s)

/-- The heading of a category. -/
def title : PatternCategory → String
  | .aggregation => "Aggregation"
  | .filter => "Filter"
  | .timeIntelligence => "Time Intelligence"
  | .logical => "Logical"
  | .math => "Math"
  | .text => "Text"
  | .table => "Table"
  | .relationship => "Relationship"

end PatternCategory

/-- How far the SQL of a pattern is from what the function means. -/
inductive Complexity where
  | simple
  | moderate
  | complex
  deriving DecidableEq, Repr, Inhabited

namespace Complexity

/-- All degrees. -/
def all : List Complexity := [.simple, .moderate, .complex]

/-- The name of a degree. -/
def name : Complexity → String
  | .simple => "simple"
  | .moderate => "moderate"
  | .complex => "complex"

/-- The degree of that name. -/
def ofName? (s : String) : Option Complexity :=
  all.find? (·.name == s)

end Complexity

/-- An expression with its SQL. -/
structure Sample where
  dax : String
  sql : String
  deriving DecidableEq, Repr, Inhabited

/-- The SQL of one function. -/
structure Pattern where
  name : String
  category : PatternCategory
  template : String
  description : String
  notes : Option String := none
  sample : Option Sample := none
  /-- The names of the arguments, in the order of a call. -/
  params : List String := []
  /-- Values for the holes that no argument fills. -/
  defaults : Bindings := []
  /-- What joins the arguments from the last parameter on, if it takes all of them. -/
  separator : Option String := none
  needsSchema : Bool := false
  isDialectSpecific : Bool := false
  complexity : Complexity := .simple
  deriving DecidableEq, Repr, Inhabited

/-- Arguments put to the names of parameters. -/
structure BoundArgs where
  bindings : Bindings := []
  /-- Parameters without argument and default; they are bound to `NULL`. -/
  missing : List String := []
  /-- How many arguments were left over. -/
  extra : Nat := 0
  deriving DecidableEq, Repr, Inhabited

namespace BoundArgs

/-- Gives a parameter its value, if there is one. -/
def give (b : BoundArgs) (defaults : Bindings) (param : String) : Option String → BoundArgs
  | some value => { b with bindings := b.bindings.insert param value }
  | none =>
    if defaults.contains param then b
    else { b with
      bindings := b.bindings.insert param "NULL"
      missing := b.missing ++ [param] }

end BoundArgs

namespace Pattern

/-- Gives the parameters their arguments from left to right; the last parameter takes all that are
left when the pattern has a separator. -/
def bindFrom (p : Pattern) : List String → List String → BoundArgs → BoundArgs
  | [], args, b => { b with extra := args.length }
  | [param], args, b => match p.separator with
    | some sep =>
      b.give p.defaults param (if args.isEmpty then none else some (sep.intercalate args))
    | none => { b.give p.defaults param args.head? with extra := args.tail.length }
  | param :: params, args, b =>
    p.bindFrom params args.tail (b.give p.defaults param args.head?)

/-- Puts arguments to the names of the parameters. -/
def bind (p : Pattern) (args : List String) : BoundArgs :=
  p.bindFrom p.params args {}

/-- The value of a hole: what is bound to it, or its default in the words of the dialect. -/
def valueOf (p : Pattern) (d : Dialect) (bindings : Bindings) (hole : String) : Option String :=
  (bindings.lookup hole).or ((p.defaults.lookup hole).map (Template.renameFunctions d))

/-- The SQL of a call in a dialect. -/
def render (p : Pattern) (d : Dialect) (bindings : Bindings) : Except TemplateError String :=
  Template.fill p.name (Template.renameFunctions d p.template) (p.valueOf d bindings)

end Pattern

end MeasureSql
