import MeasureSql.Proofs.Dax.Pieces
import MeasureSql.Proofs.Dax.Placeless

/-!
# Definitions

A name in brackets with an equals sign before an expression defines a measure.  The two words are
cut off the text without a look at what follows them, so the tokens of the expression are the ones
that it has by itself, at other places.  The parser does not look at places, and for as many tokens
it has as much fuel.

## Main definitions

* `definition` — a name in brackets, an equals sign, and a text.
* `said` — what the tokens of a text say.

## Main results

* `cutsOff_definition` — what is cut off before the text.
* `parseMeasure_eq` — behind its two words a definition is parsed as an expression.
* `parseSource_definition_iff` — a text is defined as a measure when it is an expression.
-/

namespace MeasureSql.Dax

/-- A name in brackets, an equals sign, and a text. -/
def definition (name text : String) : String :=
  "[" ++ name ++ "] = " ++ text

/-- What tokens say before the end of input. -/
def said (tokens : List Token) : List Word :=
  (tokens.takeWhile (·.kind != .eof)).map Token.word

/-! ## Words -/

/-- The words of a definition before its text. -/
def definitionWords (name : String) : List Word :=
  [(.columnRef, "[" ++ name ++ "]"), (.eq, "=")]

section Words

variable {name text : String}

/-- **Two words are cut off before the text**, whatever the text is. -/
theorem cutsOff_definition (nonempty : name ≠ "") (plain : ']' ∉ name.toList) (text : String) :
    CutsOff (definition name text).toList (definitionWords name) text.toList := by
  have bracketed := (writes_bracketed nonempty plain (' ' :: '=' :: ' ' :: text.toList)
    (by simp [delimiters])).trans (cutsOff_space _)
  have equals := (cutsOff_operator .equals text.toList).trans (cutsOff_space _)
  have whole := bracketed.trans equals
  simpa [definition, definitionWords, BinaryOp.symbol, BinaryOp.word] using whole

/-- A definition has tokens when its text has, and they say its two words and what those say. -/
theorem tokenize_definition_iff (nonempty : name ≠ "") (plain : ']' ∉ name.toList)
    {ws : List Word} :
    (∃ tokens, tokenize (definition name text) = .ok tokens ∧ said tokens = ws) ↔
      ∃ tokens, tokenize text = .ok tokens ∧ definitionWords name ++ said tokens = ws := by
  refine cuts_iff_tokenize.symm.trans ((cutsOff_definition nonempty plain text ws).trans ?_)
  constructor
  · rintro ⟨more, rfl, cut⟩
    obtain ⟨tokens, htokens, rfl⟩ := cuts_iff_tokenize.mp cut
    exact ⟨tokens, htokens, rfl⟩
  · rintro ⟨tokens, htokens, rfl⟩
    exact ⟨said tokens, rfl, cuts_iff_tokenize.mpr ⟨tokens, htokens, rfl⟩⟩

end Words

/-! ## The starting points -/

/-- The end of input plays no part in how the tokens begin. -/
theorem beginsMeasure_takeWhile (tokens : List Token) :
    beginsMeasure (tokens.takeWhile (·.kind != .eof)) = beginsMeasure tokens := by
  obtain _ | ⟨t, _ | ⟨u, rest⟩⟩ := tokens
  · rfl
  · by_cases ht : t.kind = .eof <;> simp [ht, beginsMeasure]
  · by_cases ht : t.kind = .eof <;> by_cases hu : u.kind = .eof <;> simp [ht, hu, beginsMeasure]

/-- From where tokens are parsed, by how they begin. -/
def startOf (tokens : List Token) : TokenStream → Except ParseError (Expr × List Token) :=
  if beginsMeasure tokens then TokenStream.parseMeasure else TokenStream.parseExpression

/-- A text is accepted exactly when its tokens are, from where they begin. -/
theorem parseSource_iff {source : String} {e : Expr} :
    ((parseSource source).failure = none ∧ (parseSource source).tree = e) ↔
      ∃ tokens, tokenize source = .ok tokens ∧
        startOf tokens (.ofTokens tokens) = .ok (e, []) := by
  have kept : (parse source).tokens = (tokenize source).toOption.getD [] := tokens_parseWith
  rw [parseSource, kept]
  split
  · next measure =>
    rw [parseMeasure, parseWith_iff]
    refine exists_congr fun tokens => and_congr_right fun htokens => ?_
    rw [htokens] at measure
    rw [startOf, if_pos (show beginsMeasure tokens = true from measure)]
  · next expression =>
    rw [parse, parseWith_iff]
    refine exists_congr fun tokens => and_congr_right fun htokens => ?_
    rw [htokens] at expression
    rw [startOf, if_neg (show ¬beginsMeasure tokens = true from expression)]

/-! ## Trees -/

/-- **Behind its two words a definition is parsed as an expression.** -/
theorem parseMeasure_eq {s : TokenStream} {head equals : Token} {rest : List Token}
    (body : s.body = head :: equals :: rest) (bracketed : head.kind = .columnRef)
    (sign : equals.kind = .eq) :
    s.parseMeasure =
      (TokenStream.mk rest s.stop).parseExpression.map fun (tree, left) =>
        (.measure (stripDelimiters head.lexeme) tree none none, left) := by
  simp only [TokenStream.parseMeasure, TokenStream.parseExpression, body, bracketed, sign]
  cases parseExpr s.stop (TokenStream.fuelFor rest.length) [] rest <;> rfl

/-- Of two results that agree, either both leave no tokens or none does. -/
theorem Agrees.leaves_none_iff {α : Type} {m m' : Except ParseError (α × List Token)}
    (h : Agrees m m') {a : α} : m = .ok (a, []) ↔ m' = .ok (a, []) := by
  cases h with
  | error same => simp
  | @ok b rest rest' same =>
    have empty : rest = [] ↔ rest' = [] := by
      rw [← List.map_eq_nil_iff (f := Token.word), same, List.map_eq_nil_iff]
    simp [empty]

/-- Tokens that say a definition are parsed into a measure when those that say its text are parsed
into an expression, which is the body. -/
theorem startOf_definition_iff {name : String} {tokens tokens' : List Token}
    (words : said tokens = definitionWords name ++ said tokens')
    (expression : beginsMeasure tokens' = false) {e : Expr} :
    startOf tokens (.ofTokens tokens) = .ok (e, []) ↔
      ∃ body, startOf tokens' (.ofTokens tokens') = .ok (body, []) ∧
        e = .measure name body none none := by
  obtain ⟨head, more, htokens, hhead, words⟩ := List.map_eq_cons_iff.mp words
  obtain ⟨equals, rest, rfl, hequals, words⟩ := List.map_eq_cons_iff.mp words
  simp only [Token.word, Prod.mk.injEq] at hhead hequals
  have begins : beginsMeasure tokens = true := by
    rw [← beginsMeasure_takeWhile, htokens]
    simp [beginsMeasure, hhead.1, hequals.1]
  -- The rest stands at other places than the text by itself, which no rule looks at.
  have agrees : Agrees (TokenStream.mk rest (TokenStream.ofTokens tokens).stop).parseExpression
      (TokenStream.ofTokens tokens').parseExpression :=
    agrees_parseExpression (by rw [body_ofTokens]; exact words)
  have value : stripDelimiters head.lexeme = name := by
    rw [hhead.2]
    exact stripDelimiters_between rfl rfl name
  rw [startOf, startOf, if_pos begins, expression, if_neg Bool.false_ne_true,
    parseMeasure_eq ((body_ofTokens _).trans htokens) hhead.1 hequals.1, value]
  constructor
  · intro accepted
    cases hparsed : (TokenStream.mk rest (TokenStream.ofTokens tokens).stop).parseExpression with
    | error err =>
      rw [hparsed] at accepted
      cases accepted
    | ok parsed =>
      obtain ⟨body, left⟩ := parsed
      rw [hparsed] at accepted
      cases accepted
      exact ⟨body, agrees.leaves_none_iff.mp hparsed, rfl⟩
  · rintro ⟨body, accepted, rfl⟩
    rw [agrees.leaves_none_iff.mpr accepted]
    rfl

/-- **A text is defined as a measure when it is an expression**, and the measure has its tree as the
body.  Only a text that itself begins like a definition is another matter: a body is not taken as
one. -/
theorem parseSource_definition_iff {name text : String} (nonempty : name ≠ "")
    (plain : ']' ∉ name.toList) (expression : beginsMeasure (parse text).tokens = false)
    {e : Expr} :
    ((parseSource (definition name text)).failure = none ∧
        (parseSource (definition name text)).tree = e) ↔
      ∃ body, ((parseSource text).failure = none ∧ (parseSource text).tree = body) ∧
        e = .measure name body none none := by
  have begins : ∀ tokens, tokenize text = .ok tokens → beginsMeasure tokens = false := by
    intro tokens htokens
    rw [parse, tokens_parseWith, htokens] at expression
    exact expression
  rw [parseSource_iff]
  constructor
  · rintro ⟨tokens, htokens, accepted⟩
    obtain ⟨tokens', htokens', words⟩ :=
      (tokenize_definition_iff nonempty plain).mp ⟨tokens, htokens, rfl⟩
    obtain ⟨body, accepted', same⟩ :=
      (startOf_definition_iff words.symm (begins tokens' htokens')).mp accepted
    exact ⟨body, parseSource_iff.mpr ⟨tokens', htokens', accepted'⟩, same⟩
  · rintro ⟨body, accepted, rfl⟩
    obtain ⟨tokens', htokens', accepted⟩ := parseSource_iff.mp accepted
    obtain ⟨tokens, htokens, words⟩ :=
      (tokenize_definition_iff nonempty plain).mpr ⟨tokens', htokens', rfl⟩
    exact ⟨tokens, htokens,
      (startOf_definition_iff words (begins _ htokens')).mpr ⟨body, accepted, rfl⟩⟩

end MeasureSql.Dax
