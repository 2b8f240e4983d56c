import MeasureSql.Proofs.Dax.Steady
import MeasureSql.Proofs.Dax.Tiling

/-!
# Where tokenizing stops

A text that is cut off behind a piece begins with the same piece, a quoted text as well if it is
closed there.  So when no rule applies at some place, the text before it is cut into the pieces that
were found, and nothing else is wrong with it.

## Main definitions

* `Closes` — a quoted text is closed by a mark that no other one follows.

## Main results

* `nextPiece?_cut` — a piece is found again in the text that is cut off behind it.
* `cuts_of_tokensFrom_eq_error` — the text before the place of an error is cut into words.
* `tokenize_eq_error` — what stands at the place of an error.
-/

namespace MeasureSql.Dax

open Text

/-! ## Quoted texts -/

/-- The marks of quoted texts, with the kinds of the tokens that they open. -/
def TokenKind.ofQuote? : Char → Option TokenKind
  | '"' => some .string
  | '\x27' => some .quotedIdentifier
  | _ => none

/-- A quoted text is closed: its inside ends at a mark that no other one follows. -/
def Closes (mark : Char) (cs : List Char) : Prop :=
  ∃ body rest, Escaped mark body ∧ cs = body ++ mark :: rest ∧ rest.head? ≠ some mark

/-- No other mark stands behind a quoted text. -/
theorem scanQuoted?_ends {mark : Char} {cs : List Char} {s : Scan}
    (found : scanQuoted? mark cs = some s) : s.rest.head? ≠ some mark := by
  fun_induction scanQuoted? mark cs generalizing s with
  | case1 => cases found
  | case2 => cases found
  | case3 c hc d rest ih =>
    obtain ⟨q, scanned, rfl⟩ := Option.map_eq_some_iff.mp found
    exact ih (s := q) scanned
  | case4 c hslash hmark =>
    cases found
    simp
  | case5 c hslash hmark d rest hd ih =>
    obtain ⟨q, scanned, rfl⟩ := Option.map_eq_some_iff.mp found
    exact ih (s := q) scanned
  | case6 c hslash hmark d rest hd =>
    cases found
    simpa using hd
  | case7 c cs hslash hmark ih =>
    obtain ⟨q, scanned, rfl⟩ := Option.map_eq_some_iff.mp found
    exact ih (s := q) scanned

/-- **A quoted text is found where it is closed.** -/
theorem scanQuoted?_eq_none_iff {mark : Char} (apart : mark ≠ '\\') {cs : List Char} :
    scanQuoted? mark cs = none ↔ ¬ Closes mark cs := by
  constructor
  · rintro fails ⟨body, rest, escaped, rfl, ends⟩
    cases fails.symm.trans (scanQuoted?_of_escaped apart escaped ends)
  · intro opened
    refine Option.eq_none_iff_forall_ne_some.mpr fun s found => opened ?_
    obtain ⟨body, escaped, taken⟩ := escaped_of_scanQuoted? found
    refine ⟨body, s.rest, escaped, ?_, scanQuoted?_ends found⟩
    rw [← (splits_scanQuoted? found).append, taken, List.append_assoc, List.singleton_append]

/-- No other rule begins with a quote. -/
theorem scanUnquoted?_quote {mark : Char} {kind : TokenKind}
    (quote : TokenKind.ofQuote? mark = some kind) (cs : List Char) :
    scanUnquoted? (mark :: cs) = none := by
  have quotes : mark = '"' ∨ mark = '\x27' := by
    unfold TokenKind.ofQuote? at quote
    split at quote
    · exact .inl rfl
    · exact .inr rfl
    · cases quote
  obtain rfl | rfl := quotes
  all_goals
    simp [scanUnquoted?, tagged, scanBracketed?_cons_eq_none, scanNumber?_cons_eq_none,
      scanDoubleMark?, scanMark?, markKind?, scanWord?, isIdentStart, isAscii]

/-- A quote opens a quoted text and nothing else. -/
theorem nextToken?_quote {mark : Char} {kind : TokenKind}
    (quote : TokenKind.ofQuote? mark = some kind) (cs : List Char) :
    nextToken? (mark :: cs) = (scanQuoted? mark cs).map fun s => (kind, s.after [mark]) := by
  have closed := scanUnquoted?_quote quote cs
  have rules : nextToken? (mark :: cs) =
      (((scanQuoted? mark cs).map fun s => (kind, s.after [mark])) <|>
        scanUnquoted? (mark :: cs)) := by
    unfold TokenKind.ofQuote? at quote
    split at quote
    all_goals cases quote
    all_goals rfl
  rw [rules, closed]
  cases scanQuoted? mark cs <;> rfl

/-- Where no quote stands, the other rules apply. -/
theorem nextToken?_unquoted {cs : List Char}
    (unquoted : ∀ c ∈ cs.head?, TokenKind.ofQuote? c = none) :
    nextToken? cs = scanUnquoted? cs := by
  unfold nextToken?
  dsimp only
  split
  · cases unquoted _ rfl
  · cases unquoted _ rfl
  · rfl

/-! ## Pieces -/

/-- A token is found again in front of a cut behind it. -/
theorem nextToken?_again {cs left cut : List Char} {kind : TokenKind} {s : Scan}
    (found : nextToken? cs = some (kind, s)) (behind : s.rest = left ++ cut) :
    nextToken? (s.taken ++ left) = some (kind, ⟨s.taken, left⟩) := by
  have splits := (tokenRule_of_nextToken? found).splits
  obtain ⟨c, cs, rfl⟩ := List.exists_cons_of_ne_nil splits.ne_nil
  cases quote : TokenKind.ofQuote? c with
  | some kind' =>
    rw [nextToken?_quote quote] at found
    obtain ⟨q, scanned, same⟩ := Option.map_eq_some_iff.mp found
    cases same
    have behind : q.rest = left ++ cut := behind
    have other : ∀ d ∈ (left ++ cut).head?, d ≠ c := fun d hd same =>
      scanQuoted?_ends scanned (behind ▸ same ▸ hd)
    have ends : left.head? ≠ some c := fun head => head?_of_cut other c head rfl
    rw [Scan.after, List.singleton_append, List.cons_append, nextToken?_quote quote,
      scanQuoted?_moved scanned ends]
    rfl
  | none =>
    have unquoted {ds : List Char} (same : ds.head? = some c) :
        ∀ d ∈ ds.head?, TokenKind.ofQuote? d = none := by
      intro d hd
      rw [same] at hd
      cases hd
      exact quote
    obtain ⟨d, more, taken⟩ := List.exists_cons_of_ne_nil splits.taken
    have append := splits.append
    rw [taken] at append
    obtain rfl : d = c := (List.cons.inj append).1
    rw [nextToken?_unquoted (unquoted rfl)] at found
    rw [nextToken?_unquoted (unquoted (by rw [taken]; rfl))]
    exact steady_scanUnquoted?.again found behind

theorem nextTrivia?_again {cs left cut : List Char} {s : Scan} (found : nextTrivia? cs = some s)
    (behind : s.rest = left ++ cut) : nextTrivia? (s.taken ++ left) = some ⟨s.taken, left⟩ := by
  have tag : tagged () nextTrivia? cs = some ((), s) := by rw [tagged, found]; rfl
  have again := (steady_nextTrivia? ()).again tag behind
  simpa [tagged] using again

theorem nextTrivia?_still {left cut : List Char} (fails : nextTrivia? (left ++ cut) = none) :
    nextTrivia? left = none :=
  tagged_eq_none.mp ((steady_nextTrivia? ()).still (tagged_eq_none.mpr fails))

/-- **A piece is found again in the text that is cut off behind it.** -/
theorem nextPiece?_cut {cs left cut : List Char} {kind? : Option TokenKind} {s : Scan}
    (piece : nextPiece? cs = some (kind?, s)) (behind : s.rest = left ++ cut) :
    nextPiece? (s.taken ++ left) = some (kind?, ⟨s.taken, left⟩) := by
  unfold nextPiece? at piece
  split at piece
  · next found =>
    cases piece
    rw [nextPiece?, nextTrivia?_again found behind]
  · next significant =>
    obtain ⟨⟨kind, q⟩, found, same⟩ := Option.map_eq_some_iff.mp piece
    cases same
    have whole := (tokenRule_of_nextToken? found).splits.append
    rw [behind, ← List.append_assoc] at whole
    have significant := nextTrivia?_still (whole ▸ significant)
    rw [nextPiece?, significant, nextToken?_again found behind]
    rfl

theorem splits_nextPiece? {cs : List Char} {kind? : Option TokenKind} {s : Scan}
    (piece : nextPiece? cs = some (kind?, s)) : s.Splits cs := by
  unfold nextPiece? at piece
  split at piece
  · next found =>
    cases piece
    exact splits_nextTrivia? found
  · obtain ⟨⟨kind, q⟩, found, same⟩ := Option.map_eq_some_iff.mp piece
    cases same
    exact (tokenRule_of_nextToken? found).splits

/-- A text whose first piece is known is cut into words if the rest is. -/
theorem Cuts.of_piece {cs : List Char} {kind? : Option TokenKind} {s : Scan} {ws : List Word}
    (piece : nextPiece? cs = some (kind?, s)) (more : Cuts s.rest ws) : ∃ ws', Cuts cs ws' := by
  unfold nextPiece? at piece
  split at piece
  · next found =>
    cases piece
    exact ⟨_, .trivia found more⟩
  · next significant =>
    obtain ⟨⟨kind, q⟩, found, same⟩ := Option.map_eq_some_iff.mp piece
    cases same
    exact ⟨_, .token significant found more⟩

/-! ## The place of an error -/

/-- **Cutting the text off at the place of an error leaves words.** -/
theorem cuts_of_tokensFrom_eq_error {fuel : Nat} {p : Position} {cs : List Char} {e : LexError}
    (enough : cs.length ≤ fuel) (h : tokensFrom fuel p cs = .error e) :
    ∃ front rest, cs = front ++ e.found :: rest ∧ e.position = p.advance front ∧
      nextPiece? (e.found :: rest) = none ∧ ∃ ws, Cuts front ws := by
  induction fuel generalizing p cs with
  | zero =>
    obtain rfl := List.length_eq_zero_iff.mp (Nat.le_zero.mp enough)
    cases h
  | succ fuel ih =>
    obtain _ | ⟨c, cs⟩ := cs
    · cases h
    rw [tokensFrom_cons] at h
    split at h
    · next fails =>
      cases h
      exact ⟨[], cs, rfl, rfl, fails, [], .done⟩
    · next kind? s piece =>
      have later : tokensFrom fuel (p.advance s.taken) s.rest = .error e := by
        cases more : tokensFrom fuel (p.advance s.taken) s.rest with
        | error e' =>
          rw [more] at h
          cases h
          rfl
        | ok tokens =>
          rw [more] at h
          cases kind? <;> cases h
      have splits := splits_nextPiece? piece
      have left : s.rest.length ≤ fuel := by
        have := splits.length_lt
        omega
      obtain ⟨front, rest, behind, place, stuck, ws, cut⟩ := ih left later
      have cut := Cuts.of_piece (nextPiece?_cut piece behind) cut
      refine ⟨s.taken ++ front, rest, ?_, ?_, stuck, cut⟩
      · rw [List.append_assoc, ← behind, splits.append]
      · rw [place, Position.advance, Position.advance, Position.advance, List.foldl_append]

/-- Where insignificant text begins, a piece is found. -/
theorem nextTrivia?_ne_none {gap rest : List Char} (h : Insignificant rest gap)
    (nonempty : gap ≠ []) : nextTrivia? (gap ++ rest) ≠ none := by
  have comment {cs : List Char} (found : scanComment? cs ≠ none) : nextTrivia? cs ≠ none := by
    rw [nextTrivia?_eq_orElse]
    exact fun fails => found ((Option.orElse_eq_none _ _).mp fails).2
  cases h with
  | done => exact absurd rfl nonempty
  | @blank c more blank =>
    simp [nextTrivia?, Scan.takeWhile, blank]
  | line mark_eq =>
    rcases mark_eq with rfl | rfl <;> exact comment (by simp [scanComment?])
  | @block body more =>
    refine comment ?_
    have closed : ∀ body rest, scanBlockComment? (body ++ '*' :: '/' :: rest) ≠ none := by
      intro body rest
      induction body with
      | nil => simp [scanBlockComment?]
      | cons c body ih =>
        rw [List.cons_append]
        unfold scanBlockComment?
        split
        · simp
        · exact fun fails => ih (Option.map_eq_none_iff.mp fails)
    simpa [scanComment?] using closed body (more ++ rest)

/-- No rule for tokens applies where none is found. -/
theorem not_tokenRule_of_nextToken? {cs : List Char} (fails : nextToken? cs = none)
    {kind : TokenKind} {s : Scan} : ¬ TokenRule cs kind s := by
  unfold nextToken? at fails
  dsimp only at fails
  simp only [Option.orElse_eq_none, Option.map_eq_none_iff] at fails
  obtain ⟨quoted, bracketed, number, doubleMark, mark, word⟩ := fails
  intro rule
  cases rule with
  | text opened closed =>
    subst opened
    simp [closed] at quoted
  | quotedName opened closed =>
    subst opened
    simp [closed] at quoted
  | bracketed found => cases bracketed.symm.trans found
  | number found => cases number.symm.trans found
  | doubleMark found => cases doubleMark.symm.trans found
  | mark found => cases mark.symm.trans found
  | word found => cases word.symm.trans found

/-- Apart from quotes, only a bar can begin a token at one place and none at another. -/
theorem not_tokenRule_of_unquoted {c : Char} {cs : List Char} (fails : nextToken? (c :: cs) = none)
    (unquoted : TokenKind.ofQuote? c = none) (bar : c ≠ '|') (cs' : List Char) {kind : TokenKind}
    {s : Scan} : ¬ TokenRule (c :: cs') kind s := by
  rw [nextToken?_unquoted (by simpa using unquoted)] at fails
  simp only [scanUnquoted?, Option.orElse_eq_none, tagged_eq_none] at fails
  obtain ⟨-, number, -, mark, word⟩ := fails
  have noMark : c ∉ marks := by
    have each : marks.all (fun d => d == '|' || (TokenKind.ofQuote? d).isSome ||
        (markKind? d).isSome) = true := by decide
    intro mem
    have known := List.all_eq_true.mp each c mem
    rw [unquoted, Option.map_eq_none_iff.mp mark, beq_eq_false_iff_ne.mpr bar] at known
    cases known
  have noDigit : c.isDigit = false :=
    scanRun?_eq_none.mp (scanNumber?_eq_none.mp number) c rfl
  have noWord (ds : List Char) : scanWord? (c :: ds) = none := by
    unfold scanWord? at word ⊢
    dsimp only at word ⊢
    split at word
    · cases word
    · next closed => rw [if_neg closed]
  exact not_tokenRule_of_nextToken? (by rw [nextToken?_eq_scanWord? noMark noDigit, noWord])

/-- **What stands where no token is found**: the mark of a quoted text that is not closed, a bar
without another one, or a character that no token begins with. -/
theorem opens_of_nextToken?_eq_none {c : Char} {cs : List Char}
    (fails : nextToken? (c :: cs) = none) :
    (c = '"' ∨ c = '\x27') ∧ ¬ Closes c cs ∨ c = '|' ∧ cs.head? ≠ some '|' ∨
      ∀ cs' kind s, ¬ TokenRule (c :: cs') kind s := by
  cases quote : TokenKind.ofQuote? c with
  | some kind =>
    rw [nextToken?_quote quote, Option.map_eq_none_iff] at fails
    have quotes : c = '"' ∨ c = '\x27' := by
      unfold TokenKind.ofQuote? at quote
      split at quote
      · exact .inl rfl
      · exact .inr rfl
      · cases quote
    have apart : c ≠ '\\' := by
      rcases quotes with rfl | rfl <;> decide
    exact .inl ⟨quotes, (scanQuoted?_eq_none_iff apart).mp fails⟩
  | none =>
    by_cases bar : c = '|'
    · refine .inr (.inl ⟨bar, fun second => ?_⟩)
      obtain ⟨more, rfl⟩ := List.head?_eq_some_iff.mp second
      rw [nextToken?_unquoted (by simpa using quote)] at fails
      simp only [scanUnquoted?, Option.orElse_eq_none, bar] at fails
      cases fails.2.2.1
    · exact .inr (.inr fun cs' kind s => not_tokenRule_of_unquoted fails quote bar cs')

/-- **An error stands at the first place where no piece begins.**  The place lies inside the source,
between two characters, and the source that is cut off there has tokens.  The character there is no
blank, and neither a comment nor a token begins with it: it is the opening mark of a quoted text
that is not closed, or a bar without another one, or no token begins with that character at all. -/
theorem tokenize_eq_error {source : String} {e : LexError} (h : tokenize source = .error e) :
    ∃ (before : String) (rest : List Char),
      source = before ++ String.ofList (e.found :: rest) ∧
      e.position = Position.start.advance before.toList ∧
      e.position.offset = before.utf8ByteSize ∧ e.position.offset < source.utf8ByteSize ∧
      (∃ tokens, tokenize before = .ok tokens) ∧
      isBlank e.found = false ∧
      (∀ gap more, e.found :: rest = gap ++ more → Insignificant more gap → gap = []) ∧
      (∀ kind s, ¬ TokenRule (e.found :: rest) kind s) ∧
      ((e.found = '"' ∨ e.found = '\x27') ∧ ¬ Closes e.found rest ∨
        e.found = '|' ∧ rest.head? ≠ some '|' ∨
        ∀ cs kind s, ¬ TokenRule (e.found :: cs) kind s) := by
  obtain ⟨front, rest, whole, place, stuck, ws, cut⟩ :=
    cuts_of_tokensFrom_eq_error (Nat.le_refl _) h
  unfold nextPiece? at stuck
  split at stuck
  · cases stuck
  next significant =>
  have fails : nextToken? (e.found :: rest) = none := Option.map_eq_none_iff.mp stuck
  have source_eq : source = String.ofList front ++ String.ofList (e.found :: rest) := by
    simp [← String.toList_inj, whole]
  have offset : e.position.offset = (String.ofList front).utf8ByteSize := by
    rw [place, offset_advance]
    exact Nat.zero_add _
  refine ⟨.ofList front, rest, source_eq, ?_, offset, ?_, ?_, ?_, ?_, ?_, ?_⟩
  · rw [place, String.toList_ofList]
  · have inside := e.found.utf8Size_pos
    rw [offset, source_eq, String.utf8ByteSize_append, ← byteCount, ← byteCount, byteCount_cons]
    omega
  · obtain ⟨tokens, tokenized, -⟩ := cuts_iff_tokenize.mp (by rwa [String.toList_ofList])
    exact ⟨tokens, tokenized⟩
  · rw [nextTrivia?_eq_orElse] at significant
    exact scanRun?_eq_none.mp ((Option.orElse_eq_none _ _).mp significant).1 _ rfl
  · intro gap more same insignificant
    by_cases nonempty : gap = []
    · exact nonempty
    · exact absurd (same ▸ significant) (nextTrivia?_ne_none insignificant nonempty)
  · exact fun kind s => not_tokenRule_of_nextToken? fails
  · exact opens_of_nextToken?_eq_none fails

/-- The error of a text that has no tokens. -/
def lexError? (source : String) : Option LexError :=
  match tokenize source with
  | .error e => some e
  | .ok _ => none

theorem lexError?_eq_some {source : String} {e : LexError} :
    lexError? source = some e ↔ tokenize source = .error e := by
  unfold lexError?
  split <;> simp_all

/-- An open comment falls into marks and words, and the error stands at the quote that is open. -/
theorem tokenize_eq_error_open_text :
    tokenize "1 /* [x \"é" = .error ⟨'"', ⟨1, 9, 8⟩⟩ ∧
      ∃ (before : String) (rest : List Char),
        "1 /* [x \"é" = before ++ String.ofList ('"' :: rest) ∧ before.utf8ByteSize = 8 ∧
        (∃ tokens, tokenize before = .ok tokens) ∧ ¬ Closes '"' rest := by
  have h : tokenize "1 /* [x \"é" = .error ⟨'"', ⟨1, 9, 8⟩⟩ :=
    lexError?_eq_some.mp (by decide +kernel)
  obtain ⟨before, rest, whole, -, offset, -, cut, -, -, -, opens⟩ := tokenize_eq_error h
  refine ⟨h, before, rest, whole, offset.symm, cut, ?_⟩
  rcases opens with ⟨-, opened⟩ | ⟨bar, -⟩ | never
  · exact opened
  · cases bar
  · have empty : scanQuoted? '"' ['"'] = some ⟨['"'], []⟩ := by decide
    exact absurd (.text rfl empty) (never ['"'] _ _)

end MeasureSql.Dax
