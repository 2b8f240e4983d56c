import MeasureSql.Dax.Parser

/-!
# Parsing with a cursor

The parser as it moves: all rules share one list of tokens, the index of the next one and a stack of
variable scopes.  A rule looks at the token at the index, or at the last one where the index is
beyond it, steps over it unless it is an end of input, and may ask for the token that it stepped
over.  Nothing keeps it from asking for a token that is not there; that it never does is a fact
about the rules.

## Main definitions

* `Cursor` — the state that the rules share.
* `Walk` — a computation on that state, which may stop.
* `Walk.peek`, `Walk.advance` — looking at the next token, and stepping over it.
* `Walk.expression`, `Walk.measure` — the two starting points.
-/

namespace MeasureSql.Dax

/-- All tokens, the index of the next one, and the variables of the blocks around it, those of the
innermost block first. -/
structure Cursor where
  tokens : List Token
  pos : Nat
  scopes : List Scope
  deriving Repr

/-- Why a rule gives no result. -/
inductive Halt where
  | failed (error : ParseError)
  /-- A token was asked for that is not in the list. -/
  | astray
  /-- The fuel was used up. -/
  | exhausted
  deriving DecidableEq, Repr

/-- A computation with a cursor; where it stopped remains known. -/
structure Walk (α : Type) where
  run : Cursor → Except Halt α × Cursor

namespace Walk

instance : Monad Walk where
  pure a := ⟨fun c => (.ok a, c)⟩
  bind walk next := ⟨fun c => match walk.run c with
    | (.ok a, c') => (next a).run c'
    | (.error halt, c') => (.error halt, c')⟩

/-! ## Steps -/

/-- Gives no result. -/
def halt {α : Type} (why : Halt) : Walk α :=
  ⟨fun c => (.error why, c)⟩

/-- Looks at the cursor. -/
def look : Walk Cursor :=
  ⟨fun c => (.ok c, c)⟩

/-- The token at an index. -/
def tokenAt (i : Nat) : Walk Token := do
  let c ← look
  match c.tokens[i]? with
  | some t => pure t
  | none => halt .astray

/-- The next token, or the last one of all. -/
def peek : Walk Token := do
  let c ← look
  tokenAt (min c.pos (c.tokens.length - 1))

/-- The kind of the token after the next one, if there is one. -/
def peekNextKind : Walk (Option TokenKind) := do
  let c ← look
  pure (c.tokens[c.pos + 1]?.map (·.kind))

/-- Is the next token an end of input? -/
def atEnd : Walk Bool := do
  let t ← peek
  pure (t.kind == .eof)

/-- Moves on to the next token. -/
def step : Walk Unit :=
  ⟨fun c => (.ok (), { c with pos := c.pos + 1 })⟩

/-- Steps over the next token unless it is an end of input, and takes the one before the cursor.
There is none before the front of the list. -/
def advance : Walk Token := do
  let ended ← atEnd
  if ended then pure () else step
  let c ← look
  if c.pos = 0 then halt .astray else tokenAt (c.pos - 1)

/-- Is the next token of that kind? -/
def check (kind : TokenKind) : Walk Bool := do
  let ended ← atEnd
  let t ← peek
  pure (!ended && t.kind == kind)

/-- Steps over the next token if it is of that kind. -/
def eat (kind : TokenKind) : Walk Bool := do
  let found ← check kind
  if found then do
    let _ ← advance
    pure true
  else pure false

/-- Steps over a pair of parentheses with nothing between them, if one stands next. -/
def eatEmptyParens : Walk Unit := do
  let opened ← check .lParen
  let next ← peekNextKind
  if opened && next == some .rParen then do
    let _ ← advance
    let _ ← advance
    pure ()
  else pure ()

/-- Is the next token a word with a parenthesis right after it? -/
def isWordCall : Walk Bool := do
  let t ← peek
  let next ← peekNextKind
  pure (t.lexeme.toList.all Char.isAlpha && next == some .lParen)

/-- A fault at the next token. -/
def fault {α : Type} (what : ParseFault) : Walk α := do
  let t ← peek
  halt (.failed ⟨what, t.position⟩)

/-- The expression that a variable stands for, by the innermost block that binds it. -/
def find? (name : String) : Walk (Option Expr) := do
  let c ← look
  pure (c.scopes.findSome? (·.find? name))

/-- Binds a variable in the innermost block. -/
def define (name : String) (value : Expr) : Walk Unit :=
  ⟨fun c => (.ok (), match c.scopes with
    | [] => c
    | scope :: scopes => { c with scopes := scope.bind name value :: scopes })⟩

/-- A rule in a block of its own, which is left however the rule ends. -/
def inBlock {α : Type} (walk : Walk α) : Walk α :=
  ⟨fun c =>
    let (result, c') := walk.run { c with scopes := [] :: c.scopes }
    (result, { c' with scopes := c'.scopes.drop 1 })⟩

/-! ## Rules -/

/-- A sign, unless it is a spelled-out operator in the place of a function. -/
def isNotSign : Walk Bool := do
  let word ← check .not
  if word then do
    let call ← isWordCall
    pure !call
  else pure false

/-- A number, read off the token that is stepped over. -/
def number (read? : String → Option Literal) : Walk Expr := do
  let t ← advance
  match read? t.lexeme with
  | some value => pure (.literal value)
  | none => halt (.failed ⟨.invalidNumber t.lexeme, t.position⟩)

/-- A constant, perhaps with empty parentheses behind it. -/
def constant (value : Expr) : Walk Expr := do
  let _ ← advance
  eatEmptyParens
  pure value

/-- A name that may be qualified, or a bound variable. -/
def reference : Walk Expr := do
  let t ← advance
  let qualified ← check .columnRef
  if qualified then do
    let column ← advance
    pure (.column ⟨some t.nameValue, stripDelimiters column.lexeme⟩)
  else do
    let called ← check .lParen
    if t.kind == .identifier && !called then do
      let bound ← find? t.nameValue
      match bound with
      | some value => pure (.variable t.nameValue (some value))
      | none => pure (.table t.nameValue)
    else pure (.table t.nameValue)

mutual

/-- One expression, which may be a chain of variables with its result. -/
def expression : Nat → Walk Expr
  | 0 => halt .exhausted
  | fuel + 1 => do
    let block ← check .varWord
    if block then inBlock (bindings fuel) else binary fuel 0

/-- Variables, each in the scope of those before it, and the result. -/
def bindings : Nat → Walk Expr
  | 0 => halt .exhausted
  | fuel + 1 => do
    let more ← eat .varWord
    if more then do
      let named ← check .identifier
      if named then do
        let name ← advance
        let sign ← eat .eq
        if sign then do
          let value ← binary fuel 0
          define name.lexeme value
          bindings fuel
        else fault .variableEquals
      else fault .variableName
    else do
      let result ← eat .returnWord
      if result then expression fuel else fault .returnWord

/-- Operands joined by binary operators at least as strong as `least`. -/
def binary : Nat → Nat → Walk Expr
  | 0, _ => halt .exhausted
  | fuel + 1, least => do
    let left ← unary fuel
    operators fuel least left

/-- The operators that follow a left operand, and their right operands. -/
def operators : Nat → Nat → Expr → Walk Expr
  | 0, _, _ => halt .exhausted
  | fuel + 1, least, left => do
    let t ← peek
    match t.kind.binaryOp? with
    | none => pure left
    | some op =>
      if op.strength < least then pure left
      else do
        let _ ← advance
        let right ← binary fuel (op.strength + 1)
        operators fuel least (.binary left op right)

/-- An operand with the signs in front of it. -/
def unary : Nat → Walk Expr
  | 0 => halt .exhausted
  | fuel + 1 => do
    let minus ← eat .minus
    if minus then do
      let operand ← unary fuel
      pure (.unary .negate operand)
    else do
      let sign ← isNotSign
      if sign then do
        let _ ← advance
        let operand ← unary fuel
        pure (.unary .not operand)
      else power fuel

/-- A power, or what stands below it. -/
def power : Nat → Walk Expr
  | 0 => halt .exhausted
  | fuel + 1 => do
    let base ← call fuel
    let raised ← eat .caret
    if raised then do
      let exponent ← power fuel
      pure (.binary base .power exponent)
    else pure base

/-- A call of whatever reads as a bare name, or what stands below it. -/
def call : Nat → Walk Expr
  | 0 => halt .exhausted
  | fuel + 1 => do
    let head ← primary fuel
    match head with
    | .table name => do
      let called ← check .lParen
      if called then do
        let _ ← advance
        let args ← arguments fuel
        let closed ← eat .rParen
        if closed then pure (callExpr name args) else fault .closingArguments
      else pure (.table name)
    | head => pure head

/-- The arguments up to the closing parenthesis. -/
def arguments : Nat → Walk (List Expr)
  | 0 => halt .exhausted
  | fuel + 1 => do
    let closed ← check .rParen
    if closed then pure []
    else do
      let arg ← expression fuel
      let args ← moreArguments fuel
      pure (arg :: args)

/-- The arguments after the first, each with a comma in front. -/
def moreArguments : Nat → Walk (List Expr)
  | 0 => halt .exhausted
  | fuel + 1 => do
    let more ← eat .comma
    if more then do
      let arg ← expression fuel
      let args ← moreArguments fuel
      pure (arg :: args)
    else pure []

/-- A literal, a name, or an expression in parentheses. -/
def primary : Nat → Walk Expr
  | 0 => halt .exhausted
  | fuel + 1 => do
    let t ← peek
    match t.kind with
    | .trueWord => constant (.literal (.boolean true))
    | .falseWord => constant (.literal (.boolean false))
    | .blankWord => constant .blank
    | .integer => number readIntegerLiteral?
    | .float => number readFloatLiteral?
    | .string => do
      let t ← advance
      pure (.literal (.string (unescape '"' (stripDelimiters t.lexeme))))
    | .columnRef => do
      let t ← advance
      pure (.column ⟨none, stripDelimiters t.lexeme⟩)
    | .identifier | .quotedIdentifier | .keyword => reference
    | .lParen => do
      let _ ← advance
      let inner ← expression fuel
      let closed ← eat .rParen
      if closed then pure inner else fault .closingGroup
    | .and | .or | .not => do
      let called ← isWordCall
      if called then do
        let t ← advance
        pure (.table t.lexeme)
      else fault (.unexpectedToken t.lexeme)
    | .eof => fault .unexpectedEnd
    | _ => fault (.unexpectedToken t.lexeme)

end

/-- A definition `[Name] = expression`. -/
def measure (fuel : Nat) : Walk Expr := do
  let named ← check .columnRef
  if named then do
    let name ← advance
    let sign ← eat .eq
    if sign then do
      let body ← expression fuel
      pure (.measure (stripDelimiters name.lexeme) body none none)
    else fault .measureEquals
  else fault .measureName

end Walk

/-- The starting points of the parser. -/
inductive Entry where
  | expression
  | measure
  deriving DecidableEq, Repr

/-- What is parsed from a starting point, with a cursor. -/
def Entry.walk : Entry → Nat → Walk Expr
  | .expression => Walk.expression
  | .measure => Walk.measure

/-- What is parsed from a starting point, off a stream. -/
def Entry.parse : Entry → TokenStream → Except ParseError (Expr × List Token)
  | .expression => TokenStream.parseExpression
  | .measure => TokenStream.parseMeasure

end MeasureSql.Dax
