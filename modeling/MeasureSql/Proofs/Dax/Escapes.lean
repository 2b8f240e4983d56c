import MeasureSql.Proofs.Dax.Pieces

/-!
# Every text can be written

Between its quotes a text is written with each backslash and each quote doubled.  The scanner and
the reader of escapes go through the spelling on their own, each with its own rules, and both take
the doubled characters in the same pairs.  So the spelling is one token whatever the text is, and
the token stands for the text.

## Main definitions

* `isDoubled` — the backslash and the mark, which are written twice.
* `inQuotes` — a text between two marks.

## Main results

* `escaped_doubled` — doubled characters can stand between marks.
* `unescapeChars_doubled` — doubled characters stand for the characters.
* `parse_inQuotes` — every text is a literal, and every text names a table.
-/

namespace MeasureSql.Dax

/-! ## Doubling -/

/-- Is the character written twice between marks? -/
def isDoubled (mark c : Char) : Bool :=
  c == '\\' || c == mark

/-- A text between two marks, with each backslash and each mark in it doubled. -/
def inQuotes (mark : Char) (s : String) : String :=
  String.ofList (mark :: (Text.doubled (isDoubled mark) s.toList ++ [mark]))

section Doubling

variable {mark : Char}

/-- Doubled characters can stand between marks. -/
theorem escaped_doubled (apart : mark ≠ '\\') (cs : List Char) :
    Escaped mark (Text.doubled (isDoubled mark) cs) := by
  induction cs with
  | nil => exact .nil
  | cons c cs ih =>
    by_cases backslash : c = '\\'
    · subst backslash
      simpa [Text.doubled, isDoubled] using Escaped.backslash '\\' ih
    · by_cases same : c = mark
      · subst same
        simpa [Text.doubled, isDoubled] using Escaped.twice apart ih
      · simpa [Text.doubled, isDoubled, backslash, same] using Escaped.plain backslash same ih

/-- A mark is no letter that a backslash gives another value, so a doubled character stands for
itself. -/
theorem unescapeChars_doubled (apart : mark ≠ '\\') (cs : List Char) :
    unescapeChars mark (Text.doubled (isDoubled mark) cs) = cs := by
  induction cs with
  | nil => rfl
  | cons c cs ih =>
    by_cases backslash : c = '\\'
    · subst backslash
      rw [Text.doubled, if_pos (by simp [isDoubled])]
      unfold unescapeChars
      simp [ih, escapeValue]
    · by_cases same : c = mark
      · subst same
        rw [Text.doubled, if_pos (by simp [isDoubled])]
        unfold unescapeChars
        simp [ih, backslash]
      · rw [Text.doubled, if_neg (by simp [isDoubled, backslash, same])]
        unfold unescapeChars
        simp [ih, backslash, same]

/-- What stands between the marks stands for the text. -/
theorem unescape_inQuotes (apart : mark ≠ '\\') (s : String) :
    unescape mark (stripDelimiters (inQuotes mark s)) = s := by
  have inside : stripDelimiters (inQuotes mark s) =
      String.ofList (Text.doubled (isDoubled mark) s.toList) := by
    simp [stripDelimiters, inQuotes]
  rw [inside, unescape, String.toList_ofList, unescapeChars_doubled apart, String.ofList_toList]

end Doubling

/-! ## One token -/

/-- The tokens of a text that is one token. -/
def alone (kind : TokenKind) (text : String) : List Token :=
  [⟨kind, text, .start⟩, .eof (Position.start.advance text.toList)]

/-- A text that is taken as one token has no other one. -/
theorem tokenize_of_taken {text : String} {kind : TokenKind}
    (significant : nextTrivia? text.toList = none)
    (found : nextToken? text.toList = some (kind, ⟨text.toList, []⟩)) :
    tokenize text = .ok (alone kind text) := by
  obtain ⟨c, cs, chars⟩ : ∃ c cs, text.toList = c :: cs :=
    List.exists_cons_of_ne_nil (tokenRule_of_nextToken? found).splits.ne_nil
  have piece : nextPiece? (c :: cs) = some (some kind, ⟨c :: cs, []⟩) := by
    rw [nextPiece?, ← chars, significant, found]
    rfl
  have whole : String.ofList (c :: cs) = text := by rw [← chars, String.ofList_toList]
  have ends : ∀ p, tokensFrom cs.length p [] = .ok [.eof p] := fun p => by cases cs.length <;> rfl
  rw [tokenize, chars, List.length_cons, tokensFrom_cons, piece, alone, chars, ← whole]
  dsimp only
  rw [ends]
  rfl

/-- A text whose tokens derive a tree is parsed into it. -/
theorem parse_eq_of_derives {text : String} {tokens : List Token} {e : Expr}
    (htokens : tokenize text = .ok tokens)
    (derived : Derives [] (tokens.takeWhile (·.kind != .eof)) (.expression e)) :
    parse text = ⟨text, e, tokens, none⟩ := by
  have whole := (parseExpression_ofTokens_iff htokens).mpr derived
  rw [parse, parseWith, htokens]
  dsimp only
  rw [whole]

/-- A token that is a primary expression is an expression. -/
theorem parse_of_primary {text : String} {kind : TokenKind} {e : Expr} (visible : kind ≠ .eof)
    (htokens : tokenize text = .ok (alone kind text))
    (derived : Says [(kind, text)] (.primary e)) :
    parse text = ⟨text, e, alone kind text, none⟩ := by
  refine parse_eq_of_derives htokens ?_
  have before : (alone kind text).takeWhile (·.kind != .eof) = [⟨kind, text, .start⟩] := by
    simp [alone, visible, Token.eof]
  rw [before]
  exact Says.expression_level (.operand derived.call_primary.signed_call)

/-- A text between the marks of a rule for quoted texts is one token. -/
theorem tokenize_inQuotes {mark : Char} {kind : TokenKind} (apart : mark ≠ '\\')
    (significant : ∀ rest, nextTrivia? (mark :: rest) = none)
    (opens : ∀ {rest scan}, scanQuoted? mark rest = some scan →
      nextToken? (mark :: rest) = some (kind, scan.after [mark])) (s : String) :
    tokenize (inQuotes mark s) = .ok (alone kind (inQuotes mark s)) := by
  have closed :
      scanQuoted? mark (Text.doubled (isDoubled mark) s.toList ++ [mark]) = some ⟨_, []⟩ :=
    scanQuoted?_of_escaped apart (escaped_doubled apart s.toList) (by simp)
  refine tokenize_of_taken ?_ ?_
  · rw [inQuotes, String.toList_ofList]
    exact significant _
  · rw [inQuotes, String.toList_ofList]
    exact opens closed

theorem tokenize_inQuotes_text (s : String) :
    tokenize (inQuotes '"' s) = .ok (alone .string (inQuotes '"' s)) :=
  tokenize_inQuotes (by decide)
    (fun _ => nextTrivia?_eq_none (by decide) (by decide) (by decide))
    (fun closed => by simp [nextToken?, closed]) s

theorem tokenize_inQuotes_name (s : String) :
    tokenize (inQuotes '\x27' s) = .ok (alone .quotedIdentifier (inQuotes '\x27' s)) :=
  tokenize_inQuotes (by decide)
    (fun _ => nextTrivia?_eq_none (by decide) (by decide) (by decide))
    (fun closed => by simp [nextToken?, closed]) s

/-- **Every text can be written**: between double quotes, with each backslash and each double quote
doubled, it is one token and the literal of the text; between single quotes, with each backslash and
each single quote doubled, it is one token and the name of a table. -/
theorem parse_inQuotes (s : String) :
    (tokenize (inQuotes '"' s) = .ok (alone .string (inQuotes '"' s)) ∧
      parse (inQuotes '"' s) =
        ⟨inQuotes '"' s, .literal (.string s), alone .string (inQuotes '"' s), none⟩) ∧
    tokenize (inQuotes '\x27' s) = .ok (alone .quotedIdentifier (inQuotes '\x27' s)) ∧
      parse (inQuotes '\x27' s) =
        ⟨inQuotes '\x27' s, .table s, alone .quotedIdentifier (inQuotes '\x27' s), none⟩ := by
  have literal : Says [(.string, inQuotes '"' s)] (.primary (.literal (.string s))) := by
    have spelled : IsSpelled (Word.token (.string, inQuotes '"' s)) _ := .string rfl
    rw [Word.token, unescape_inQuotes (by decide)] at spelled
    exact .literal spelled
  have table : Says [(.quotedIdentifier, inQuotes '\x27' s)] (.primary (.table s)) := by
    have named : Derives [] [Word.token (.quotedIdentifier, inQuotes '\x27' s)] _ :=
      .table rfl (fun same => by cases same)
    have value : (Word.token (.quotedIdentifier, inQuotes '\x27' s)).nameValue = s := by
      simp [Token.nameValue, Word.token, unescape_inQuotes]
    rwa [value] at named
  exact ⟨⟨tokenize_inQuotes_text s,
      parse_of_primary (by decide) (tokenize_inQuotes_text s) literal⟩,
    tokenize_inQuotes_name s, parse_of_primary (by decide) (tokenize_inQuotes_name s) table⟩

/-- A backslash before the closing quote does not take the quote with it, and quotes inside stand
next to the delimiters. -/
example : inQuotes '"' "\"a\\" = "\"\"\"a\\\\\"" := by decide

end MeasureSql.Dax
