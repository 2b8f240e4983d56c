import Mathlib.Data.Option.Basic
import MeasureSql.Dax.Source
import MeasureSql.Proofs.Dax.Completeness
import MeasureSql.Proofs.Dax.Soundness

/-!
# Which source texts are expressions

A source text is accepted exactly when its tokens derive an expression, and the tree that it is
given is the only one that they derive.

## Main results

* `spelled_tokenize` — in the tokens of a text every `NOT` is spelled out.
* `parse_iff_derives` — the parser accepts its grammar and builds its only tree.
* `parseWith_iff` — when a text is accepted from a starting point.
-/

namespace MeasureSql.Dax

/-! ## The tokens of a text -/

/-- What a character's capital form says about letters holds of the character. -/
theorem isAlpha_of_toUpper {c : Char} (h : c.toUpper.isAlpha = true) : c.isAlpha = true := by
  unfold Char.toUpper at h
  split at h
  · next hlower =>
    show (c.isUpper || (decide (c.val ≥ 'a'.val) && decide (c.val ≤ 'z'.val))) = true
    simp only [Bool.or_eq_true, Bool.and_eq_true, decide_eq_true_eq]
    exact .inr hlower
  · exact h

/-- The words that become `AND`, `OR` and `NOT` consist of letters. -/
theorem isAlpha_of_ofWord {cs : List Char}
    (h : TokenKind.ofWord (String.ofList cs) ∈ [TokenKind.and, .or, .not]) :
    cs.all Char.isAlpha = true := by
  have hupper : Text.asciiUpper (String.ofList cs) ∈ ["AND", "OR", "NOT"] := by
    unfold TokenKind.ofWord at h
    split at h
    all_goals first | simp_all; done | (split at h <;> simp at h)
  have hmap : cs.map Char.toUpper ∈ [['A', 'N', 'D'], ['O', 'R'], ['N', 'O', 'T']] := by
    simpa [Text.asciiUpper, ← String.toList_inj] using hupper
  refine List.all_eq_true.mpr fun c hc => isAlpha_of_toUpper ?_
  have hletters : [['A', 'N', 'D'], ['O', 'R'], ['N', 'O', 'T']].all (·.all Char.isAlpha) = true :=
    rfl
  exact List.all_eq_true.mp (List.all_eq_true.mp hletters _ hmap) _ (List.mem_map_of_mem hc)

/-- Only a word becomes `NOT`. -/
theorem isAlpha_of_nextToken? {cs : List Char} {s : Scan} (h : nextToken? cs = some (.not, s)) :
    s.taken.all Char.isAlpha = true := by
  unfold nextToken? at h
  dsimp only at h
  rcases (Option.orElse_eq_some _ _ _).mp h with hquoted | ⟨-, h⟩
  · split at hquoted
    all_goals simp at hquoted
  rcases (Option.orElse_eq_some _ _ _).mp h with hbracketed | ⟨-, h⟩
  · simp at hbracketed
  rcases (Option.orElse_eq_some _ _ _).mp h with hnumber | ⟨-, h⟩
  · unfold scanNumber? at hnumber
    split at hnumber
    · cases hnumber
    · split at hnumber
      · split at hnumber <;> simp at hnumber
      · simp at hnumber
  rcases (Option.orElse_eq_some _ _ _).mp h with hdouble | ⟨-, h⟩
  · unfold scanDoubleMark? at hdouble
    split at hdouble <;> simp at hdouble
  rcases (Option.orElse_eq_some _ _ _).mp h with hmark | ⟨-, h⟩
  · cases cs with
    | nil => cases hmark
    | cons c cs =>
      simp only [scanMark?, Option.map_eq_some_iff, Prod.mk.injEq] at hmark
      obtain ⟨kind, hkind, rfl, -⟩ := hmark
      unfold markKind? at hkind
      split at hkind <;> simp at hkind
  · cases cs with
    | nil => cases h
    | cons c cs =>
      unfold scanWord? at h
      dsimp only at h
      split at h
      · simp only [Option.some.injEq, Prod.mk.injEq] at h
        obtain ⟨hkind, rfl⟩ := h
        exact isAlpha_of_ofWord (by rw [hkind]; decide)
      · cases h

/-- A step of the lexer.  (The equations that Lean would make of the definition take it long, since
it looks into the rules for that.) -/
theorem tokensFrom_cons (fuel : Nat) (p : Position) (c : Char) (cs : List Char) :
    tokensFrom (fuel + 1) p (c :: cs) = (match nextPiece? (c :: cs) with
      | none => .error ⟨c, p⟩
      | some (kind?, s) => do
        let tokens ← tokensFrom fuel (p.advance s.taken) s.rest
        match kind? with
        | none => .ok tokens
        | some kind => .ok (⟨kind, String.ofList s.taken, p⟩ :: tokens)) := by
  rfl

/-- The tokens of the rest of a text: blanks and comments are passed over, and each token begins
where the piece before it ended. -/
inductive Lexed : Position → List Char → List Token → Prop
  | done {p : Position} : Lexed p [] [.eof p]
  | trivia {p : Position} {cs : List Char} {s : Scan} {tokens : List Token}
      (found : nextTrivia? cs = some s) (more : Lexed (p.advance s.taken) s.rest tokens) :
      Lexed p cs tokens
  | token {p : Position} {cs : List Char} {kind : TokenKind} {s : Scan} {tokens : List Token}
      (significant : nextTrivia? cs = none) (found : nextToken? cs = some (kind, s))
      (more : Lexed (p.advance s.taken) s.rest tokens) :
      Lexed p cs (⟨kind, String.ofList s.taken, p⟩ :: tokens)

theorem lexed_of_tokensFrom {fuel : Nat} {p : Position} {cs : List Char} {tokens : List Token}
    (h : tokensFrom fuel p cs = .ok tokens) : Lexed p cs tokens := by
  induction fuel generalizing p cs tokens with
  | zero =>
    cases cs with
    | nil =>
      cases h
      exact .done
    | cons c cs => cases h
  | succ fuel ih =>
    cases cs with
    | nil =>
      cases h
      exact .done
    | cons c cs =>
      rw [tokensFrom_cons] at h
      split at h
      · cases h
      · next kind? s piece =>
        obtain ⟨rest, hrest, hok⟩ := bind_eq_ok h
        unfold nextPiece? at piece
        split at piece
        · next found =>
          cases piece
          cases hok
          exact .trivia found (ih hrest)
        · next significant =>
          obtain ⟨⟨kind, q⟩, found, same⟩ := Option.map_eq_some_iff.mp piece
          cases same
          cases hok
          exact .token significant found (ih hrest)

/-- The tokens that are cut from the rest of a text spell out every `NOT`. -/
theorem Lexed.spelled {p : Position} {cs : List Char} {tokens : List Token}
    (h : Lexed p cs tokens) : Spelled tokens := by
  induction h with
  | done => simp [Spelled, Token.eof]
  | trivia _ _ ih => exact ih
  | @token p cs kind s rest _ found _ ih =>
    intro t ht hnot
    rcases List.mem_cons.mp ht with rfl | ht
    · rw [show kind = .not from hnot] at found
      simpa using isAlpha_of_nextToken? found
    · exact ih t ht hnot

/-- **In the tokens of a text every `NOT` is spelled out.** -/
theorem spelled_tokenize {source : String} {tokens : List Token}
    (h : tokenize source = .ok tokens) : Spelled tokens :=
  (lexed_of_tokensFrom h).spelled

/-! ## Acceptance -/

/-- The tokens before the end of input. -/
theorem body_ofTokens (tokens : List Token) :
    (TokenStream.ofTokens tokens).body = tokens.takeWhile (·.kind != .eof) := by
  unfold TokenStream.ofTokens
  dsimp only
  split <;> rfl

/-- An expression is read off the front of a stream up to its end exactly when the stream derives
it. -/
theorem parseExpression_iff_derives {s : TokenStream} (hs : Spelled s.body) {e : Expr} :
    s.parseExpression = .ok (e, []) ↔ Derives [] s.body (.expression e) := by
  constructor
  · intro h
    obtain ⟨seg, hseg, hd⟩ := (sound s.stop _).expr hs h
    rwa [hseg, List.append_nil]
  · intro h
    have hfuel : 10 * s.body.length + 5 ≤ TokenStream.fuelFor s.body.length := by
      unfold TokenStream.fuelFor
      omega
    have hparse := h.accepts s.stop _ [] hfuel (closed_nil 0)
    rwa [List.append_nil] at hparse

/-- **The parser accepts its grammar and builds its only tree**: a source text is parsed without a
failure into a tree exactly when its tokens, up to the end of input, derive the tree as an
expression and derive no other. -/
theorem parse_iff_derives (source : String) (e : Expr) :
    ((parse source).failure = none ∧ (parse source).tree = e) ↔
      ∃ tokens, tokenize source = .ok tokens ∧
        Derives [] (tokens.takeWhile (·.kind != .eof)) (.expression e) ∧
        ∀ e', Derives [] (tokens.takeWhile (·.kind != .eof)) (.expression e') → e' = e := by
  unfold parse parseWith
  cases htokens : tokenize source with
  | error err => simp
  | ok tokens =>
    have hbody : Spelled (TokenStream.ofTokens tokens).body := by
      rw [body_ofTokens]
      exact fun t ht => spelled_tokenize htokens t ((List.takeWhile_prefix _).subset ht)
    have hiff : ∀ e', (TokenStream.ofTokens tokens).parseExpression = .ok (e', []) ↔
        Derives [] (tokens.takeWhile (·.kind != .eof)) (.expression e') := by
      intro e'
      rw [← body_ofTokens]
      exact parseExpression_iff_derives hbody
    have huniq : ∀ e' e'', Derives [] (tokens.takeWhile (·.kind != .eof)) (.expression e') →
        Derives [] (tokens.takeWhile (·.kind != .eof)) (.expression e'') → e'' = e' := by
      intro e' e'' h' h''
      have heq := ((hiff e').mpr h').symm.trans ((hiff e'').mpr h'')
      cases heq
      rfl
    simp only [Except.ok.injEq, exists_eq_left']
    rw [and_iff_left_of_imp fun hd e' => huniq e e' hd, ← hiff e]
    split
    · next err herr => simp [herr]
    · next tree htree => simp [htree]
    · next tree t rest htree => simp [htree]

/-! ## Starting points -/

section Starts

variable {start : TokenStream → Except ParseError (Expr × List Token)} {source : String}
  {tokens : List Token} {e : Expr}

/-- A text is accepted from a starting point exactly when this leaves none of its tokens. -/
theorem parseWith_iff :
    ((parseWith start source).failure = none ∧ (parseWith start source).tree = e) ↔
      ∃ tokens, tokenize source = .ok tokens ∧ start (.ofTokens tokens) = .ok (e, []) := by
  unfold parseWith
  cases tokenize source with
  | error err => simp
  | ok tokens =>
    simp only [Except.ok.injEq, exists_eq_left']
    split
    · next err herr => simp [herr]
    · next tree htree => simp [htree]
    · next tree t rest htree => simp [htree]

/-- The tokens of a text are kept, whatever becomes of them. -/
theorem tokens_parseWith :
    (parseWith start source).tokens = (tokenize source).toOption.getD [] := by
  unfold parseWith
  cases tokenize source with
  | error err => rfl
  | ok tokens =>
    dsimp only
    split <;> rfl

/-- The tokens of a text are parsed to their end exactly when they derive the expression. -/
theorem parseExpression_ofTokens_iff (htokens : tokenize source = .ok tokens) :
    (TokenStream.ofTokens tokens).parseExpression = .ok (e, []) ↔
      Derives [] (tokens.takeWhile (·.kind != .eof)) (.expression e) := by
  have spelled : Spelled (TokenStream.ofTokens tokens).body := by
    rw [body_ofTokens]
    exact fun t ht => spelled_tokenize htokens t ((List.takeWhile_prefix _).subset ht)
  rw [← body_ofTokens]
  exact parseExpression_iff_derives spelled

end Starts

end MeasureSql.Dax
