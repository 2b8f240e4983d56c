import MeasureSql.Proofs.Dax.Acceptance

/-!
# How a text is cut into words

Tokens carry positions and are cut with fuel, but neither matters for what they say.  A text is cut
into words, each a kind with a spelling, piece by piece from the left; the pieces are those of the
rules of the language, and together they are the text.  A text is parsed into a tree exactly when it
is cut into words that derive the tree.

## Main definitions

* `Word`, `Token.word` — what a token says, wherever it stands.
* `TokenRule` — the rules for the token at the front of a text.
* `Cuts` — a text is cut into words.
* `CutsOff` — some words are cut off the front of a text.

## Main results

* `tokenRule_of_nextToken?` — which rule gave a token.
* `TokenRule.splits` — what a rule takes and what it leaves are the text.
* `Derives.of_words` — the grammar looks at what the tokens say.
* `parse_iff_cuts` — trees and words.
-/

namespace MeasureSql.Dax

/-- A kind with a spelling. -/
abbrev Word := TokenKind × String

/-- What a token says, wherever it stands. -/
def Token.word (t : Token) : Word :=
  (t.kind, t.lexeme)

/-- A token that says a word, at the beginning of a text. -/
def Word.token (w : Word) : Token :=
  ⟨w.1, w.2, .start⟩

@[simp]
theorem word_token (w : Word) : (Word.token w).word = w := rfl

/-! ## Rules -/

/-- The rules for the token at the front of a text. -/
inductive TokenRule (cs : List Char) : TokenKind → Scan → Prop
  | text {rest : List Char} {s : Scan} (opened : cs = '"' :: rest)
      (closed : scanQuoted? '"' rest = some s) : TokenRule cs .string (s.after ['"'])
  | quotedName {rest : List Char} {s : Scan} (opened : cs = '\x27' :: rest)
      (closed : scanQuoted? '\x27' rest = some s) :
      TokenRule cs .quotedIdentifier (s.after ['\x27'])
  | bracketed {s : Scan} (found : scanBracketed? cs = some s) : TokenRule cs .columnRef s
  | number {kind : TokenKind} {s : Scan} (found : scanNumber? cs = some (kind, s)) :
      TokenRule cs kind s
  | doubleMark {kind : TokenKind} {s : Scan} (found : scanDoubleMark? cs = some (kind, s)) :
      TokenRule cs kind s
  | mark {kind : TokenKind} {s : Scan} (found : scanMark? cs = some (kind, s)) :
      TokenRule cs kind s
  | word {kind : TokenKind} {s : Scan} (found : scanWord? cs = some (kind, s)) :
      TokenRule cs kind s

/-- **Every token was given by a rule.** -/
theorem tokenRule_of_nextToken? {cs : List Char} {kind : TokenKind} {s : Scan}
    (h : nextToken? cs = some (kind, s)) : TokenRule cs kind s := by
  unfold nextToken? at h
  dsimp only at h
  rcases (Option.orElse_eq_some _ _ _).mp h with quoted | ⟨-, h⟩
  · split at quoted
    · obtain ⟨q, closed, same⟩ := Option.map_eq_some_iff.mp quoted
      cases same
      exact .text rfl closed
    · obtain ⟨q, closed, same⟩ := Option.map_eq_some_iff.mp quoted
      cases same
      exact .quotedName rfl closed
    · cases quoted
  rcases (Option.orElse_eq_some _ _ _).mp h with bracketed | ⟨-, h⟩
  · obtain ⟨q, found, same⟩ := Option.map_eq_some_iff.mp bracketed
    cases same
    exact .bracketed found
  rcases (Option.orElse_eq_some _ _ _).mp h with number | ⟨-, h⟩
  · exact .number number
  rcases (Option.orElse_eq_some _ _ _).mp h with doubleMark | ⟨-, h⟩
  · exact .doubleMark doubleMark
  rcases (Option.orElse_eq_some _ _ _).mp h with mark | ⟨-, word⟩
  · exact .mark mark
  · exact .word word

/-! ## Pieces are the text -/

/-- What was taken, and it is something, and what was left are the text. -/
structure Scan.Splits (s : Scan) (cs : List Char) : Prop where
  append : s.taken ++ s.rest = cs
  taken : s.taken ≠ []

theorem Scan.Splits.ne_nil {s : Scan} {cs : List Char} (h : s.Splits cs) : cs ≠ [] := by
  rw [← h.append]
  simp [h.taken]

theorem Scan.Splits.after {s : Scan} {cs : List Char} (h : s.Splits cs) (front : List Char) :
    (s.after front).Splits (front ++ cs) := by
  refine ⟨?_, ?_⟩
  · rw [Scan.after, List.append_assoc, h.append]
  · simp [Scan.after, h.taken]

theorem splits_after_takeWhile (p : Char → Bool) (c : Char) (front cs : List Char) :
    ((Scan.takeWhile p cs).after (c :: front)).Splits (c :: front ++ cs) := by
  refine ⟨?_, ?_⟩
  · simp [Scan.after, Scan.takeWhile, List.takeWhile_append_dropWhile]
  · simp [Scan.after]

theorem splits_scanQuoted? {mark : Char} {cs : List Char} {s : Scan}
    (h : scanQuoted? mark cs = some s) : s.Splits cs := by
  fun_induction scanQuoted? mark cs generalizing s with
  | case1 => cases h
  | case2 => cases h
  | case3 c hc d rest ih =>
    obtain ⟨q, hq, rfl⟩ := Option.map_eq_some_iff.mp h
    exact (ih hq).after [c, d]
  | case4 c hslash hmark =>
    cases h
    exact ⟨rfl, by simp⟩
  | case5 c hslash hmark d rest hd ih =>
    obtain ⟨q, hq, rfl⟩ := Option.map_eq_some_iff.mp h
    exact (ih hq).after [c, d]
  | case6 c hslash hmark d rest hd =>
    cases h
    exact ⟨rfl, by simp⟩
  | case7 c cs hslash hmark ih =>
    obtain ⟨q, hq, rfl⟩ := Option.map_eq_some_iff.mp h
    exact (ih hq).after [c]

theorem splits_scanBlockComment? {cs : List Char} {s : Scan} (h : scanBlockComment? cs = some s) :
    s.Splits cs := by
  fun_induction scanBlockComment? cs generalizing s with
  | case1 => cases h
  | case2 rest =>
    cases h
    exact ⟨rfl, by simp⟩
  | case3 c cs hc ih =>
    obtain ⟨q, hq, rfl⟩ := Option.map_eq_some_iff.mp h
    exact (ih hq).after [c]

theorem splits_scanComment? {cs : List Char} {s : Scan} (h : scanComment? cs = some s) :
    s.Splits cs := by
  unfold scanComment? at h
  split at h
  · cases h
    exact splits_after_takeWhile _ _ _ _
  · cases h
    exact splits_after_takeWhile _ _ _ _
  · obtain ⟨q, hq, rfl⟩ := Option.map_eq_some_iff.mp h
    exact (splits_scanBlockComment? hq).after ['/', '*']
  · cases h

/-- A run of characters is taken up to the first one that does not belong to it. -/
theorem takeWhile_run {p : Char → Bool} {run rest : List Char} (all : ∀ c ∈ run, p c = true)
    (ends : ∀ c ∈ rest.head?, p c = false) : Scan.takeWhile p (run ++ rest) = ⟨run, rest⟩ := by
  have stops : rest.takeWhile p = [] ∧ rest.dropWhile p = rest := by
    cases rest with
    | nil => exact ⟨rfl, rfl⟩
    | cons c rest =>
      have no := ends c rfl
      exact ⟨List.takeWhile_cons_of_neg (by simp [no]), List.dropWhile_cons_of_neg (by simp [no])⟩
  simp only [Scan.takeWhile]
  rw [List.takeWhile_append_of_pos all, List.dropWhile_append_of_pos all, stops.1, stops.2,
    List.append_nil]

theorem splits_scanDigits? {cs : List Char} {s : Scan} (h : scanDigits? cs = some s) :
    s.Splits cs := by
  unfold scanDigits? at h
  dsimp only at h
  split at h
  · cases h
  · next found =>
    cases h
    exact ⟨List.takeWhile_append_dropWhile, by simpa using found⟩

theorem splits_scanExponent? {cs : List Char} {s : Scan} (h : scanExponent? cs = some s) :
    s.Splits cs := by
  unfold scanExponent? at h
  split at h
  · split at h
    · split at h
      all_goals
        obtain ⟨q, hq, rfl⟩ := Option.map_eq_some_iff.mp h
        exact (splits_scanDigits? hq).after _
    · cases h
  · cases h

theorem Scan.Splits.withExponent {s : Scan} {cs : List Char} (h : s.Splits cs) :
    (withExponent s).Splits cs := by
  unfold Dax.withExponent
  split
  · next e he =>
    have more := (splits_scanExponent? he).after s.taken
    rwa [h.append] at more
  · exact h

theorem splits_scanNumber? {cs : List Char} {kind : TokenKind} {s : Scan}
    (h : scanNumber? cs = some (kind, s)) : s.Splits cs := by
  unfold scanNumber? at h
  split at h
  · cases h
  · next whole hwhole =>
    have digits := splits_scanDigits? hwhole
    split at h
    · next rest point =>
      split at h
      · next fraction hfraction =>
        cases h
        have more := (splits_scanDigits? hfraction).after (whole.taken ++ ['.'])
        rw [List.append_assoc, List.singleton_append, ← point, digits.append] at more
        exact more.withExponent
      · cases h
        exact digits.withExponent
    · cases h
      exact digits.withExponent

/-- A number begins with its first digits. -/
theorem scanNumber?_eq_none {cs : List Char} : scanNumber? cs = none ↔ scanDigits? cs = none := by
  unfold scanNumber?
  split
  · next same => simp [same]
  · next same =>
    rw [same]
    split
    · split <;> simp
    · simp

/-- No number begins with another character than a digit. -/
theorem scanNumber?_cons_eq_none {c : Char} (noDigit : c.isDigit = false) (cs : List Char) :
    scanNumber? (c :: cs) = none :=
  scanNumber?_eq_none.mpr (by simp [scanDigits?, Scan.takeWhile, noDigit])

/-- A name in brackets is closed by the first closing bracket. -/
theorem scanBracketed?_eq_some_iff {cs : List Char} {s : Scan} :
    scanBracketed? cs = some s ↔ ∃ name, name ≠ [] ∧ ']' ∉ name ∧
      cs = '[' :: (name ++ ']' :: s.rest) ∧ s.taken = '[' :: (name ++ [']']) := by
  constructor
  · intro found
    unfold scanBracketed? at found
    split at found
    · next inner =>
      dsimp only [Scan.takeWhile] at found
      split at found
      · next rest closed =>
        split at found
        · cases found
        · next nonempty =>
          cases found
          refine ⟨inner.takeWhile (· != ']'), by simpa using nonempty, fun mem => ?_, ?_, rfl⟩
          · simpa using List.all_eq_true.mp List.all_takeWhile _ mem
          · rw [← closed, List.takeWhile_append_dropWhile]
      · cases found
    · cases found
  · rintro ⟨name, nonempty, plain, rfl, taken⟩
    obtain ⟨taken', rest⟩ := s
    obtain rfl : taken' = _ := taken
    have run : Scan.takeWhile (· != ']') (name ++ ']' :: rest) = ⟨name, ']' :: rest⟩ := by
      refine takeWhile_run (fun c hc => ?_) fun c hc => ?_
      · have other : c ≠ ']' := fun same => plain (same ▸ hc)
        simpa using other
      · cases hc
        rfl
    simp [scanBracketed?, run, nonempty]

theorem splits_scanBracketed? {cs : List Char} {s : Scan} (h : scanBracketed? cs = some s) :
    s.Splits cs := by
  obtain ⟨name, -, -, rfl, taken⟩ := scanBracketed?_eq_some_iff.mp h
  exact ⟨by simp [taken], by simp [taken]⟩

/-- No name in brackets begins with another character. -/
theorem scanBracketed?_cons_eq_none {c : Char} (other : c ≠ '[') (cs : List Char) :
    scanBracketed? (c :: cs) = none := by
  refine Option.eq_none_iff_forall_ne_some.mpr fun s found => ?_
  obtain ⟨name, -, -, same, -⟩ := scanBracketed?_eq_some_iff.mp found
  exact other (List.cons.inj same).1

theorem splits_scanDoubleMark? {cs : List Char} {kind : TokenKind} {s : Scan}
    (h : scanDoubleMark? cs = some (kind, s)) : s.Splits cs := by
  unfold scanDoubleMark? at h
  split at h
  all_goals first
    | cases h
      exact ⟨rfl, by simp⟩
    | cases h

theorem splits_scanMark? {cs : List Char} {kind : TokenKind} {s : Scan}
    (h : scanMark? cs = some (kind, s)) : s.Splits cs := by
  cases cs with
  | nil => cases h
  | cons c cs =>
    obtain ⟨k, -, same⟩ := Option.map_eq_some_iff.mp h
    cases same
    exact ⟨rfl, by simp⟩

/-- What was taken as a word. -/
theorem scanWord?_eq_some {c : Char} {cs : List Char} {kind : TokenKind} {s : Scan}
    (h : scanWord? (c :: cs) = some (kind, s)) :
    (Text.isIdentStart c || c == '_') = true ∧ s = (Scan.takeWhile Text.isIdentPart cs).after [c] ∧
      kind = .ofWord (String.ofList s.taken) := by
  unfold scanWord? at h
  dsimp only at h
  split at h
  · next opens =>
    simp only [Option.some.injEq, Prod.mk.injEq] at h
    obtain ⟨rfl, rfl⟩ := h
    exact ⟨opens, rfl, rfl⟩
  · cases h

theorem splits_scanWord? {cs : List Char} {kind : TokenKind} {s : Scan}
    (h : scanWord? cs = some (kind, s)) : s.Splits cs := by
  cases cs with
  | nil => cases h
  | cons c cs =>
    obtain ⟨-, rfl, -⟩ := scanWord?_eq_some h
    exact splits_after_takeWhile _ c [] cs

/-- **What a rule takes and what it leaves are the text.** -/
theorem TokenRule.splits {cs : List Char} {kind : TokenKind} {s : Scan}
    (h : TokenRule cs kind s) : s.Splits cs := by
  cases h with
  | text opened closed =>
    rw [opened]
    exact (splits_scanQuoted? closed).after ['"']
  | quotedName opened closed =>
    rw [opened]
    exact (splits_scanQuoted? closed).after ['\x27']
  | bracketed found => exact splits_scanBracketed? found
  | number found => exact splits_scanNumber? found
  | doubleMark found => exact splits_scanDoubleMark? found
  | mark found => exact splits_scanMark? found
  | word found => exact splits_scanWord? found

theorem splits_nextTrivia? {cs : List Char} {s : Scan} (h : nextTrivia? cs = some s) :
    s.Splits cs := by
  unfold nextTrivia? at h
  dsimp only at h
  split at h
  · exact splits_scanComment? h
  · next blank =>
    cases h
    exact ⟨List.takeWhile_append_dropWhile, by simpa using blank⟩

/-! ## Cutting -/

/-- A text is cut into words. -/
inductive Cuts : List Char → List Word → Prop
  | done : Cuts [] []
  | trivia {cs : List Char} {s : Scan} {ws : List Word} (found : nextTrivia? cs = some s)
      (more : Cuts s.rest ws) : Cuts cs ws
  | token {cs : List Char} {kind : TokenKind} {s : Scan} {ws : List Word}
      (significant : nextTrivia? cs = none) (found : nextToken? cs = some (kind, s))
      (more : Cuts s.rest ws) : Cuts cs ((kind, String.ofList s.taken) :: ws)

/-- Some words are cut off the front of a text, and then it goes on with the rest. -/
def CutsOff (cs : List Char) (ws : List Word) (rest : List Char) : Prop :=
  ∀ all, Cuts cs all ↔ ∃ more, all = ws ++ more ∧ Cuts rest more

theorem CutsOff.refl (cs : List Char) : CutsOff cs [] cs := by
  intro all
  simp

theorem CutsOff.trans {cs rest rest' : List Char} {ws ws' : List Word} (h : CutsOff cs ws rest)
    (h' : CutsOff rest ws' rest') : CutsOff cs (ws ++ ws') rest' := by
  intro all
  rw [h all]
  constructor
  · rintro ⟨more, rfl, cut⟩
    obtain ⟨more', rfl, cut'⟩ := (h' more).mp cut
    exact ⟨more', by rw [List.append_assoc], cut'⟩
  · rintro ⟨more, rfl, cut⟩
    exact ⟨ws' ++ more, List.append_assoc .., (h' _).mpr ⟨more, rfl, cut⟩⟩

theorem CutsOff.cuts {cs rest : List Char} {ws more : List Word} (h : CutsOff cs ws rest)
    (cut : Cuts rest more) : Cuts cs (ws ++ more) :=
  (h _).mpr ⟨more, rfl, cut⟩

/-- An insignificant piece is cut off without a word. -/
theorem cutsOff_trivia {cs : List Char} {s : Scan} (found : nextTrivia? cs = some s) :
    CutsOff cs [] s.rest := by
  intro all
  constructor
  · intro cut
    cases cut with
    | done => exact absurd rfl (splits_nextTrivia? found).ne_nil
    | trivia found' more =>
      cases found.symm.trans found'
      exact ⟨all, rfl, more⟩
    | token significant => cases found.symm.trans significant
  · rintro ⟨more, rfl, cut⟩
    exact .trivia found cut

/-- A token is cut off as its word. -/
theorem cutsOff_token {cs : List Char} {kind : TokenKind} {s : Scan}
    (significant : nextTrivia? cs = none) (found : nextToken? cs = some (kind, s)) :
    CutsOff cs [(kind, String.ofList s.taken)] s.rest := by
  intro all
  constructor
  · intro cut
    cases cut with
    | done => exact absurd rfl (tokenRule_of_nextToken? found).splits.ne_nil
    | trivia found' => cases significant.symm.trans found'
    | token significant' found' more =>
      cases found.symm.trans found'
      exact ⟨_, rfl, more⟩
  · rintro ⟨more, rfl, cut⟩
    exact .token significant found cut

/-- A text is cut in one way. -/
theorem Cuts.unique {cs : List Char} {ws ws' : List Word} (h : Cuts cs ws) (h' : Cuts cs ws') :
    ws = ws' := by
  induction h generalizing ws' with
  | done =>
    cases h' with
    | done => rfl
    | trivia found => exact absurd rfl (splits_nextTrivia? found).ne_nil
    | token _ found => exact absurd rfl (tokenRule_of_nextToken? found).splits.ne_nil
  | trivia found more ih =>
    obtain ⟨_, rfl, more'⟩ := (cutsOff_trivia found _).mp h'
    exact ih more'
  | token significant found more ih =>
    obtain ⟨_, rfl, more'⟩ := (cutsOff_token significant found _).mp h'
    rw [ih more', List.singleton_append]

/-! ## Tokens and words -/

/-- The kinds of tokens that a bare word can make. -/
def TokenKind.wordKinds : List TokenKind :=
  [.trueWord, .falseWord, .blankWord, .varWord, .returnWord, .and, .or, .not, .keyword, .identifier]

theorem ofWord_mem_wordKinds (word : String) : TokenKind.ofWord word ∈ TokenKind.wordKinds := by
  unfold TokenKind.ofWord
  cases isKeyword word
  all_goals
    split
    all_goals simp [TokenKind.wordKinds]

/-- No rule gives the end of input. -/
theorem TokenRule.kind_ne_eof {cs : List Char} {kind : TokenKind} {s : Scan}
    (h : TokenRule cs kind s) : kind ≠ .eof := by
  rintro rfl
  cases h with
  | number found =>
    unfold scanNumber? at found
    split at found
    · cases found
    · split at found
      · split at found <;> simp at found
      · simp at found
  | doubleMark found =>
    unfold scanDoubleMark? at found
    split at found <;> cases found
  | mark found =>
    cases cs with
    | nil => cases found
    | cons c cs =>
      obtain ⟨k, hk, same⟩ := Option.map_eq_some_iff.mp found
      cases same
      unfold markKind? at hk
      split at hk <;> cases hk
  | word found =>
    cases cs with
    | nil => cases found
    | cons c cs => exact absurd ((scanWord?_eq_some found).2.2 ▸ ofWord_mem_wordKinds _) (by decide)

/-- What tokens say before the end of input. -/
theorem Lexed.cuts {p : Position} {cs : List Char} {tokens : List Token}
    (h : Lexed p cs tokens) : Cuts cs ((tokens.takeWhile (·.kind != .eof)).map Token.word) := by
  induction h with
  | done => exact .done
  | trivia found _ ih => exact .trivia found ih
  | token significant found _ ih =>
    have visible := (tokenRule_of_nextToken? found).kind_ne_eof
    rw [List.takeWhile_cons_of_pos (by simpa using visible)]
    exact .token significant found ih

/-- What a rule leaves is shorter than the text. -/
theorem Scan.Splits.length_lt {s : Scan} {cs : List Char} (h : s.Splits cs) :
    s.rest.length < cs.length := by
  have taken := List.length_pos_iff.mpr h.taken
  rw [← h.append, List.length_append]
  omega

/-- A text that is cut into words has tokens that say them. -/
theorem exists_tokensFrom_of_cuts {cs : List Char} {ws : List Word} (h : Cuts cs ws) {fuel : Nat}
    (enough : cs.length ≤ fuel) (p : Position) :
    ∃ tokens, tokensFrom fuel p cs = .ok tokens ∧
      (tokens.takeWhile (·.kind != .eof)).map Token.word = ws := by
  induction h generalizing fuel p with
  | done => exact ⟨[.eof p], by cases fuel <;> rfl, rfl⟩
  | @trivia cs s ws found more ih =>
    have shorter := (splits_nextTrivia? found).length_lt
    obtain ⟨fuel, rfl⟩ : ∃ n, fuel = n + 1 := ⟨fuel - 1, by omega⟩
    have left : s.rest.length ≤ fuel := by omega
    obtain ⟨tokens, htokens, said⟩ := ih left (p.advance s.taken)
    obtain _ | ⟨c, cs⟩ := cs
    · exact absurd rfl (splits_nextTrivia? found).ne_nil
    · refine ⟨tokens, ?_, said⟩
      have piece : nextPiece? (c :: cs) = some (none, s) := by rw [nextPiece?, found]
      rw [tokensFrom_cons, piece]
      dsimp only
      rw [htokens]
      rfl
  | @token cs kind s ws significant found more ih =>
    have shorter := (tokenRule_of_nextToken? found).splits.length_lt
    have visible := (tokenRule_of_nextToken? found).kind_ne_eof
    obtain ⟨fuel, rfl⟩ : ∃ n, fuel = n + 1 := ⟨fuel - 1, by omega⟩
    have left : s.rest.length ≤ fuel := by omega
    obtain ⟨tokens, htokens, said⟩ := ih left (p.advance s.taken)
    obtain _ | ⟨c, cs⟩ := cs
    · exact absurd rfl (tokenRule_of_nextToken? found).splits.ne_nil
    · refine ⟨⟨kind, String.ofList s.taken, p⟩ :: tokens, ?_, ?_⟩
      · have piece : nextPiece? (c :: cs) = some (some kind, s) := by
          rw [nextPiece?, significant, found]
          rfl
        rw [tokensFrom_cons, piece]
        dsimp only
        rw [htokens]
        rfl
      · rw [List.takeWhile_cons_of_pos (by simpa using visible), List.map_cons, said]
        rfl

/-- **A text is cut into the words that its tokens say.** -/
theorem cuts_iff_tokenize {source : String} {ws : List Word} :
    Cuts source.toList ws ↔ ∃ tokens, tokenize source = .ok tokens ∧
      (tokens.takeWhile (·.kind != .eof)).map Token.word = ws := by
  constructor
  · intro cut
    exact exists_tokensFrom_of_cuts cut (Nat.le_refl _) .start
  · rintro ⟨tokens, htokens, rfl⟩
    exact (lexed_of_tokensFrom htokens).cuts

/-! ## Trees and words -/

/-- A run of tokens that says what an appended run says is appended itself. -/
theorem exists_append_of_words {seg left right : List Token}
    (h : seg.map Token.word = (left ++ right).map Token.word) :
    ∃ l r, seg = l ++ r ∧ l.map Token.word = left.map Token.word ∧
      r.map Token.word = right.map Token.word := by
  rw [List.map_append] at h
  exact List.map_eq_append_iff.mp h

theorem exists_cons_of_words {seg rest : List Token} {t : Token}
    (h : seg.map Token.word = (t :: rest).map Token.word) :
    ∃ u r, seg = u :: r ∧ u.kind = t.kind ∧ u.lexeme = t.lexeme ∧
      r.map Token.word = rest.map Token.word := by
  obtain ⟨u, r, rfl, same, more⟩ := List.map_eq_cons_iff.mp h
  simp only [Token.word, Prod.mk.injEq] at same
  exact ⟨u, r, rfl, same.1, same.2, more⟩

theorem nextIs_of_words {kind : TokenKind} {seg seg' : List Token}
    (h : seg'.map Token.word = seg.map Token.word) : nextIs kind seg' = nextIs kind seg := by
  cases seg with
  | nil =>
    cases List.map_eq_nil_iff.mp h
    rfl
  | cons t seg =>
    obtain ⟨u, r, rfl, same, -, -⟩ := exists_cons_of_words h
    rw [nextIs, nextIs, same]

theorem nameValue_of_words {t u : Token} (kind : u.kind = t.kind) (lexeme : u.lexeme = t.lexeme) :
    u.nameValue = t.nameValue := by
  rw [Token.nameValue, Token.nameValue, kind, lexeme]

/-- **The grammar looks at what the tokens say**, not at where they stand. -/
theorem Derives.of_words {scope : Scope} {seg : List Token} {phrase : Phrase}
    (h : Derives scope seg phrase) {seg' : List Token}
    (same : seg'.map Token.word = seg.map Token.word) : Derives scope seg' phrase := by
  induction h generalizing seg' with
  | ofBindings h ih => exact .ofBindings (ih same)
  | ofLevel h ih => exact .ofLevel (ih same)
  | bind hvar hname heq hvalue hrest ihvalue ihrest =>
    obtain ⟨var, r, rfl, kind, -, same⟩ := exists_cons_of_words same
    obtain ⟨name, r, rfl, kind', lexeme, same⟩ := exists_cons_of_words same
    obtain ⟨eq, r, rfl, kind'', -, same⟩ := exists_cons_of_words same
    obtain ⟨l, r, rfl, same, same'⟩ := exists_append_of_words same
    refine .bind (kind.trans hvar) (kind'.trans hname) (kind''.trans heq) (ihvalue same) ?_
    rw [lexeme]
    exact ihrest same'
  | moreBindings h ih => exact .moreBindings (ih same)
  | returned hword h ih =>
    obtain ⟨word, r, rfl, kind, -, same⟩ := exists_cons_of_words same
    exact .returned (kind.trans hword) (ih same)
  | join hl hop hr ihl ihr =>
    obtain ⟨l, r, rfl, left, same⟩ := exists_append_of_words same
    obtain ⟨u, r, rfl, kind, -, right⟩ := exists_cons_of_words same
    exact .join (ihl left) (kind ▸ hop) (ihr right)
  | next h ih => exact .next (ih same)
  | operand h ih => exact .operand (ih same)
  | negate ht h ih =>
    obtain ⟨u, r, rfl, kind, -, same⟩ := exists_cons_of_words same
    exact .negate (kind.trans ht) (ih same)
  | not ht hnext h ih =>
    obtain ⟨u, r, rfl, kind, -, same⟩ := exists_cons_of_words same
    exact .not (kind.trans ht) ((nextIs_of_words same).trans hnext) (ih same)
  | unsigned h ih => exact .unsigned (ih same)
  | raise hbase ht hexponent ihbase ihexponent =>
    obtain ⟨l, r, rfl, left, same⟩ := exists_append_of_words same
    obtain ⟨u, r, rfl, kind, -, right⟩ := exists_cons_of_words same
    exact .raise (ihbase left) (kind.trans ht) (ihexponent right)
  | unraised h ih => exact .unraised (ih same)
  | apply hcallee hleft hargs hright happlied ihcallee ihargs =>
    obtain ⟨l, r, rfl, callee, same⟩ := exists_append_of_words same
    obtain ⟨u, r, rfl, kind, -, same⟩ := exists_cons_of_words same
    obtain ⟨r, r', rfl, args, same⟩ := exists_append_of_words same
    obtain ⟨v, r', rfl, kind', -, same⟩ := exists_cons_of_words same
    cases List.map_eq_nil_iff.mp same
    exact .apply (ihcallee callee) (kind.trans hleft) (ihargs args) (kind'.trans hright) happlied
  | unapplied h ih => exact .unapplied (ih same)
  | namedFunction ht =>
    obtain ⟨u, r, rfl, kind, lexeme, same⟩ := exists_cons_of_words same
    cases List.map_eq_nil_iff.mp same
    rw [← nameValue_of_words kind lexeme]
    exact .namedFunction (kind.trans ht)
  | operatorWord ht =>
    obtain ⟨u, r, rfl, kind, lexeme, same⟩ := exists_cons_of_words same
    cases List.map_eq_nil_iff.mp same
    rw [← lexeme]
    exact .operatorWord (by rwa [Token.isOperatorWord, kind, lexeme])
  | bareName h ih => exact .bareName (ih same)
  | noArguments =>
    cases List.map_eq_nil_iff.mp same
    exact .noArguments
  | someArguments h hmore ih ihmore =>
    obtain ⟨l, r, rfl, left, right⟩ := exists_append_of_words same
    exact .someArguments (ih left) (ihmore right)
  | noMore =>
    cases List.map_eq_nil_iff.mp same
    exact .noMore
  | more hcomma h hmore ih ihmore =>
    obtain ⟨u, r, rfl, kind, -, same⟩ := exists_cons_of_words same
    obtain ⟨l, r, rfl, left, right⟩ := exists_append_of_words same
    exact .more (kind.trans hcomma) (ih left) (ihmore right)
  | constant h =>
    obtain ⟨u, r, rfl, kind, -, same⟩ := exists_cons_of_words same
    cases List.map_eq_nil_iff.mp same
    exact .constant (kind ▸ h)
  | constantCall h hleft hright =>
    obtain ⟨u, r, rfl, kind, -, same⟩ := exists_cons_of_words same
    obtain ⟨v, r, rfl, kind', -, same⟩ := exists_cons_of_words same
    obtain ⟨w, r, rfl, kind'', -, same⟩ := exists_cons_of_words same
    cases List.map_eq_nil_iff.mp same
    exact .constantCall (kind ▸ h) (kind'.trans hleft) (kind''.trans hright)
  | literal h =>
    obtain ⟨u, r, rfl, kind, lexeme, same⟩ := exists_cons_of_words same
    cases List.map_eq_nil_iff.mp same
    refine .literal ?_
    cases h with
    | integer hkind hread => exact .integer (kind.trans hkind) (by rw [lexeme, hread])
    | float hkind hread => exact .float (kind.trans hkind) (by rw [lexeme, hread])
    | string hkind =>
      rw [← lexeme]
      exact .string (kind.trans hkind)
  | column ht =>
    obtain ⟨u, r, rfl, kind, lexeme, same⟩ := exists_cons_of_words same
    cases List.map_eq_nil_iff.mp same
    rw [← lexeme]
    exact .column (kind.trans ht)
  | qualified ht hcolumn =>
    obtain ⟨u, r, rfl, kind, lexeme, same⟩ := exists_cons_of_words same
    obtain ⟨v, r, rfl, kind', lexeme', same⟩ := exists_cons_of_words same
    cases List.map_eq_nil_iff.mp same
    rw [← nameValue_of_words kind lexeme, ← lexeme']
    exact .qualified (kind ▸ ht) (kind'.trans hcolumn)
  | «variable» ht hbound =>
    obtain ⟨u, r, rfl, kind, lexeme, same⟩ := exists_cons_of_words same
    cases List.map_eq_nil_iff.mp same
    rw [← nameValue_of_words kind lexeme] at hbound ⊢
    exact .variable (kind.trans ht) hbound
  | table ht hfree =>
    obtain ⟨u, r, rfl, kind, lexeme, same⟩ := exists_cons_of_words same
    cases List.map_eq_nil_iff.mp same
    rw [← nameValue_of_words kind lexeme] at hfree ⊢
    exact .table (kind ▸ ht) (kind ▸ hfree)
  | group hleft h hright ih =>
    obtain ⟨u, r, rfl, kind, -, same⟩ := exists_cons_of_words same
    obtain ⟨r, r', rfl, inner, same⟩ := exists_append_of_words same
    obtain ⟨v, r', rfl, kind', -, same⟩ := exists_cons_of_words same
    cases List.map_eq_nil_iff.mp same
    exact .group (kind.trans hleft) (ih inner) (kind'.trans hright)

/-- A text is parsed into a tree when its tokens derive it. -/
theorem parse_iff_exists_tokens {source : String} {e : Expr} :
    ((parse source).failure = none ∧ (parse source).tree = e) ↔
      ∃ tokens, tokenize source = .ok tokens ∧
        Derives [] (tokens.takeWhile (·.kind != .eof)) (.expression e) := by
  rw [parse, parseWith_iff]
  exact exists_congr fun tokens => and_congr_right fun htokens =>
    parseExpression_ofTokens_iff htokens

/-- **Trees and words**: a text is parsed without a failure into a tree exactly when it is cut into
words that derive the tree. -/
theorem parse_iff_cuts {source : String} {e : Expr} :
    ((parse source).failure = none ∧ (parse source).tree = e) ↔
      ∃ ws, Cuts source.toList ws ∧ Derives [] (ws.map Word.token) (.expression e) := by
  have same : ∀ seg : List Token,
      ((seg.map Token.word).map Word.token).map Token.word = seg.map Token.word := by
    intro seg
    simp [Function.comp_def]
  rw [parse_iff_exists_tokens]
  constructor
  · rintro ⟨tokens, htokens, derived⟩
    exact ⟨_, cuts_iff_tokenize.mpr ⟨tokens, htokens, rfl⟩, derived.of_words (same _)⟩
  · rintro ⟨ws, cut, derived⟩
    obtain ⟨tokens, htokens, rfl⟩ := cuts_iff_tokenize.mp cut
    exact ⟨tokens, htokens, derived.of_words (same _).symm⟩

end MeasureSql.Dax
