import MeasureSql.Dax.Lexer
import MeasureSql.Dax.Spelling

/-!
# Parsing

A recursive-descent parser.  Binary operators are parsed by strength and associate to the left; the
power operator binds tighter than the signs in front of it and associates to the right.  `VAR` binds
a name up to the end of its block, and a reference to a bound name becomes a node that carries the
bound expression.

The parser reads the tokens before the first end of input.  Each rule takes the tokens that are left
and returns a tree with those that follow it; nesting is bounded by a fuel argument that the number
of tokens always covers.

## Main definitions

* `TokenStream` — the tokens before the end of input, and the end.
* `Scope` — the variables in force.
* `TokenStream.parseExpression`, `TokenStream.parseMeasure` — the two starting points.
-/

namespace MeasureSql.Dax

/-- What is wrong at a token. -/
inductive ParseFault where
  | unexpectedEnd
  | unexpectedToken (lexeme : String)
  | invalidNumber (lexeme : String)
  | measureName
  | measureEquals
  | variableName
  | variableEquals
  | returnWord
  | closingArguments
  | closingGroup
  deriving DecidableEq, Repr

/-- The wording of a fault. -/
def ParseFault.message : ParseFault → String
  | .unexpectedEnd => "Unexpected end of input"
  | .unexpectedToken lexeme => "Unexpected token: " ++ lexeme
  | .invalidNumber lexeme => "Invalid number: " ++ lexeme
  | .measureName => "Expected measure name in brackets [Name]"
  | .measureEquals => "Expected '=' after measure name"
  | .variableName => "Expected variable name after VAR"
  | .variableEquals => "Expected '=' in variable definition"
  | .returnWord => "Expected RETURN after VAR definitions"
  | .closingArguments => "Expected ')' after function arguments"
  | .closingGroup => "Expected ')' after grouped expression"

/-- A fault and where it was found. -/
structure ParseError where
  fault : ParseFault
  position : Position
  deriving DecidableEq, Repr

/-- The whole message. -/
def ParseError.message (e : ParseError) : String :=
  "Parse error at line " ++ toString e.position.line ++ ", column " ++ toString e.position.column
    ++ ": " ++ e.fault.message

/-- The variables in force, the latest binding first; names are in capitals. -/
abbrev Scope := List (String × Expr)

namespace Scope

/-- The expression bound to a name in any case. -/
def find? (scope : Scope) (name : String) : Option Expr :=
  scope.lookup (Text.asciiUpper name)

/-- A scope with one more binding. -/
def bind (scope : Scope) (name : String) (value : Expr) : Scope :=
  (Text.asciiUpper name, value) :: scope

end Scope

/-- The binary operator that a token stands for; the power operator is not among them. -/
def TokenKind.binaryOp? : TokenKind → Option BinaryOp
  | .or => some .or
  | .and => some .and
  | .eq => some .equals
  | .notEq => some .notEquals
  | .lt => some .lessThan
  | .ltEq => some .lessEqual
  | .gt => some .greaterThan
  | .gtEq => some .greaterEqual
  | .plus => some .add
  | .minus => some .subtract
  | .ampersand => some .concat
  | .star => some .multiply
  | .slash => some .divide
  | _ => none

/-- Is the next token of that kind? -/
def nextIs (kind : TokenKind) : List Token → Bool
  | t :: _ => t.kind == kind
  | [] => false

/-- Is the next token a spelled-out operator with a parenthesis right after it? -/
def isWordCall : List Token → Bool
  | t :: u :: _ => t.lexeme.toList.all Char.isAlpha && u.kind == .lParen
  | _ => false

/-- What follows a pair of parentheses with nothing between them, if one stands next. -/
def skipEmptyParens : List Token → List Token
  | t :: u :: rest => if t.kind == .lParen && u.kind == .rParen then rest else t :: u :: rest
  | ts => ts

/-- A call; `IF` with two or three arguments is a conditional. -/
def callExpr (name : String) (args : List Expr) : Expr :=
  if Text.sameIgnoringCase name "IF" then match args with
    | [c, t] => .cond c t none
    | [c, t, e] => .cond c t (some e)
    | _ => .call name args
  else .call name args

/-- The name that a token in the place of a table or function stands for. -/
def Token.nameValue (t : Token) : String :=
  if t.kind == .quotedIdentifier then unescape '\x27' (stripDelimiters t.lexeme) else t.lexeme

/-- A fault at the next token, or at the end of input when none is left. -/
def faultAt (stop : Position) (ts : List Token) (fault : ParseFault) : ParseError :=
  match ts with
  | t :: _ => ⟨fault, t.position⟩
  | [] => ⟨fault, stop⟩

/-- A name that may be qualified: a column when brackets follow, a bound variable unless a
parenthesis follows, and otherwise a table or the name of a function. -/
def parseReference (scope : Scope) (t : Token) : List Token → Expr × List Token
  | u :: rest =>
    if u.kind == .columnRef then (.column ⟨some t.nameValue, stripDelimiters u.lexeme⟩, rest)
    else if t.kind == .identifier && u.kind != .lParen then
      match scope.find? t.nameValue with
      | some bound => (.variable t.nameValue (some bound), u :: rest)
      | none => (.table t.nameValue, u :: rest)
    else (.table t.nameValue, u :: rest)
  | [] =>
    if t.kind == .identifier then match scope.find? t.nameValue with
      | some bound => (.variable t.nameValue (some bound), [])
      | none => (.table t.nameValue, [])
    else (.table t.nameValue, [])

mutual

/-- One expression, which may be a chain of variables with its result. -/
def parseExpr (stop : Position) : Nat → Scope → List Token → Except ParseError (Expr × List Token)
  | 0, _, ts => .error (faultAt stop ts .unexpectedEnd)
  | fuel + 1, scope, ts =>
    if nextIs .varWord ts then parseVariables stop fuel scope ts
    else parseBinary stop fuel scope 0 ts

/-- Variables, each in the scope of those before it, and the result. -/
def parseVariables (stop : Position) :
    Nat → Scope → List Token → Except ParseError (Expr × List Token)
  | 0, _, ts => .error (faultAt stop ts .unexpectedEnd)
  | fuel + 1, scope, ts => match ts with
    | t :: rest =>
      if t.kind == .varWord then match rest with
        | name :: rest =>
          if name.kind == .identifier then match rest with
            | eq :: rest =>
              if eq.kind == .eq then do
                let (value, rest) ← parseBinary stop fuel scope 0 rest
                parseVariables stop fuel (scope.bind name.lexeme value) rest
              else .error (faultAt stop (eq :: rest) .variableEquals)
            | [] => .error (faultAt stop [] .variableEquals)
          else .error (faultAt stop (name :: rest) .variableName)
        | [] => .error (faultAt stop [] .variableName)
      else if t.kind == .returnWord then parseExpr stop fuel scope rest
      else .error (faultAt stop (t :: rest) .returnWord)
    | [] => .error (faultAt stop [] .returnWord)

/-- Operands joined by binary operators at least as strong as `least`. -/
def parseBinary (stop : Position) :
    Nat → Scope → Nat → List Token → Except ParseError (Expr × List Token)
  | 0, _, _, ts => .error (faultAt stop ts .unexpectedEnd)
  | fuel + 1, scope, least, ts => do
    let (left, rest) ← parseUnary stop fuel scope ts
    parseOperators stop fuel scope least left rest

/-- The operators that follow a left operand, and their right operands. -/
def parseOperators (stop : Position) :
    Nat → Scope → Nat → Expr → List Token → Except ParseError (Expr × List Token)
  | 0, _, _, _, ts => .error (faultAt stop ts .unexpectedEnd)
  | fuel + 1, scope, least, left, ts => match ts with
    | [] => .ok (left, [])
    | t :: rest => match t.kind.binaryOp? with
      | none => .ok (left, t :: rest)
      | some op =>
        if op.strength < least then .ok (left, t :: rest)
        else do
          let (right, rest) ← parseBinary stop fuel scope (op.strength + 1) rest
          parseOperators stop fuel scope least (.binary left op right) rest

/-- An operand with the signs in front of it. -/
def parseUnary (stop : Position) : Nat → Scope → List Token → Except ParseError (Expr × List Token)
  | 0, _, ts => .error (faultAt stop ts .unexpectedEnd)
  | fuel + 1, scope, ts => match ts with
    | t :: rest =>
      if t.kind == .minus then do
        let (operand, rest) ← parseUnary stop fuel scope rest
        .ok (.unary .negate operand, rest)
      else if t.kind == .not && !isWordCall ts then do
        let (operand, rest) ← parseUnary stop fuel scope rest
        .ok (.unary .not operand, rest)
      else parsePower stop fuel scope (t :: rest)
    | [] => parsePower stop fuel scope []

/-- A power, or what stands below it. -/
def parsePower (stop : Position) : Nat → Scope → List Token → Except ParseError (Expr × List Token)
  | 0, _, ts => .error (faultAt stop ts .unexpectedEnd)
  | fuel + 1, scope, ts => do
    let (base, rest) ← parseCall stop fuel scope ts
    match rest with
    | t :: after =>
      if t.kind == .caret then do
        let (exponent, after) ← parsePower stop fuel scope after
        .ok (.binary base .power exponent, after)
      else .ok (base, t :: after)
    | [] => .ok (base, [])

/-- A call of whatever reads as a bare name, or what stands below it. -/
def parseCall (stop : Position) : Nat → Scope → List Token → Except ParseError (Expr × List Token)
  | 0, _, ts => .error (faultAt stop ts .unexpectedEnd)
  | fuel + 1, scope, ts => do
    let (head, rest) ← parsePrimary stop fuel scope ts
    match head, rest with
    | .table name, t :: rest =>
      if t.kind == .lParen then do
        let (args, rest) ← parseArguments stop fuel scope rest
        match rest with
        | u :: rest =>
          if u.kind == .rParen then .ok (callExpr name args, rest)
          else .error (faultAt stop (u :: rest) .closingArguments)
        | [] => .error (faultAt stop [] .closingArguments)
      else .ok (.table name, t :: rest)
    | head, rest => .ok (head, rest)

/-- The arguments up to the closing parenthesis. -/
def parseArguments (stop : Position) :
    Nat → Scope → List Token → Except ParseError (List Expr × List Token)
  | 0, _, ts => .error (faultAt stop ts .unexpectedEnd)
  | fuel + 1, scope, ts =>
    if nextIs .rParen ts then .ok ([], ts)
    else do
      let (arg, rest) ← parseExpr stop fuel scope ts
      let (args, rest) ← parseMoreArguments stop fuel scope rest
      .ok (arg :: args, rest)

/-- The arguments after the first, each with a comma in front. -/
def parseMoreArguments (stop : Position) :
    Nat → Scope → List Token → Except ParseError (List Expr × List Token)
  | 0, _, ts => .error (faultAt stop ts .unexpectedEnd)
  | fuel + 1, scope, ts => match ts with
    | t :: rest =>
      if t.kind == .comma then do
        let (arg, rest) ← parseExpr stop fuel scope rest
        let (args, rest) ← parseMoreArguments stop fuel scope rest
        .ok (arg :: args, rest)
      else .ok ([], t :: rest)
    | [] => .ok ([], [])

/-- A literal, a name, or an expression in parentheses. -/
def parsePrimary (stop : Position) :
    Nat → Scope → List Token → Except ParseError (Expr × List Token)
  | 0, _, ts => .error (faultAt stop ts .unexpectedEnd)
  | fuel + 1, scope, ts => match ts with
    | [] => .error (faultAt stop [] .unexpectedEnd)
    | t :: rest => match t.kind with
      | .trueWord => .ok (.literal (.boolean true), skipEmptyParens rest)
      | .falseWord => .ok (.literal (.boolean false), skipEmptyParens rest)
      | .blankWord => .ok (.blank, skipEmptyParens rest)
      | .integer => match readIntegerLiteral? t.lexeme with
        | some value => .ok (.literal value, rest)
        | none => .error ⟨.invalidNumber t.lexeme, t.position⟩
      | .float => match readFloatLiteral? t.lexeme with
        | some value => .ok (.literal value, rest)
        | none => .error ⟨.invalidNumber t.lexeme, t.position⟩
      | .string => .ok (.literal (.string (unescape '"' (stripDelimiters t.lexeme))), rest)
      | .columnRef => .ok (.column ⟨none, stripDelimiters t.lexeme⟩, rest)
      | .identifier | .quotedIdentifier | .keyword => .ok (parseReference scope t rest)
      | .lParen => do
        let (inner, rest) ← parseExpr stop fuel scope rest
        match rest with
        | u :: rest =>
          if u.kind == .rParen then .ok (inner, rest)
          else .error (faultAt stop (u :: rest) .closingGroup)
        | [] => .error (faultAt stop [] .closingGroup)
      | .and | .or | .not =>
        if isWordCall (t :: rest) then .ok (.table t.lexeme, rest)
        else .error (faultAt stop (t :: rest) (.unexpectedToken t.lexeme))
      | _ => .error (faultAt stop (t :: rest) (.unexpectedToken t.lexeme))

end

/-- Tokens as the parser sees them: those before the first end of input, and where that is. -/
structure TokenStream where
  body : List Token
  stop : Position
  deriving Repr

/-- Where the input ends when the last token is not an end of input: right after that token. -/
def endPosition (tokens : List Token) : Position :=
  match tokens.getLast? with
  | none => .start
  | some t => ⟨t.position.line, t.position.column + t.lexeme.length,
      t.position.offset + t.lexeme.utf8ByteSize⟩

/-- The same tokens with an end of input after them, unless the last one is an end of input. -/
def withEof (tokens : List Token) : List Token :=
  if (tokens.getLast?.map (·.kind)) == some .eof then tokens
  else tokens ++ [.eof (endPosition tokens)]

namespace TokenStream

/-- The tokens before the first end of input. -/
def ofTokens (tokens : List Token) : TokenStream :=
  let body := tokens.takeWhile (·.kind != .eof)
  match tokens.find? (·.kind == .eof) with
  | some e => ⟨body, e.position⟩
  | none => ⟨body, endPosition tokens⟩

/-- Fuel for a number of tokens: every rule but the loops is passed at most once between two
tokens. -/
def fuelFor (n : Nat) : Nat := 10 * (n + 1)

/-- One expression from the front of the stream. -/
def parseExpression (s : TokenStream) : Except ParseError (Expr × List Token) :=
  parseExpr s.stop (fuelFor s.body.length) [] s.body

/-- A definition `[Name] = expression` from the front of the stream. -/
def parseMeasure (s : TokenStream) : Except ParseError (Expr × List Token) :=
  match s.body with
  | name :: rest =>
    if name.kind == .columnRef then match rest with
      | eq :: rest =>
        if eq.kind == .eq then do
          let (body, rest) ← parseExpr s.stop (fuelFor rest.length) [] rest
          .ok (.measure (stripDelimiters name.lexeme) body none none, rest)
        else .error (faultAt s.stop (eq :: rest) .measureEquals)
      | [] => .error (faultAt s.stop [] .measureEquals)
    else .error (faultAt s.stop (name :: rest) .measureName)
  | [] => .error (faultAt s.stop [] .measureName)

end TokenStream

end MeasureSql.Dax
