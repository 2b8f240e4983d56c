import MeasureSql.Proofs.Dax.Lexeme
import MeasureSql.Proofs.Dax.Placeless

/-!
# Layout and comments

A token is recognized again when its spelling is set in front of a blank or at the end of a text:
what was looked at behind it, the rest of an unclosed comment, another mark, a digit that follows a
point or an exponent, does not matter any more.  So the spellings of the tokens of a text, one blank
between each two, are cut into the same tokens, and the text is parsed as before.  The one exception
is a bracket that was not closed or had nothing in it: with a blank behind it, it may enclose one.

## Main definitions

* `spacedOut` — the spellings of tokens with single blanks between them.

## Main results

* `TokenRule.writes` — a token is recognized by itself.
* `tokenize_spacedOut` — the tokens of a text that is written out anew.
* `Derives.kind_ne_lBracket` — no phrase holds a bare bracket.
* `parse_spacedOut` — layout and comments are insignificant.
-/

namespace MeasureSql.Dax

open Text

/-! ## Quoted texts -/

/-- A quoted text ends at its closing mark wherever no other one follows. -/
theorem scanQuoted?_moved {mark : Char} {cs rest : List Char} {s : Scan}
    (h : scanQuoted? mark cs = some s) (ends : rest.head? ≠ some mark) :
    scanQuoted? mark (s.taken ++ rest) = some ⟨s.taken, rest⟩ := by
  have closes (hmark : (mark == '\\') = false) :
      scanQuoted? mark (mark :: rest) = some ⟨[mark], rest⟩ := by
    unfold scanQuoted?
    cases rest with
    | nil => simp [hmark]
    | cons d rest =>
      have other : d ≠ mark := by simpa using ends
      simp [hmark, other]
  fun_induction scanQuoted? mark cs generalizing s with
  | case1 => cases h
  | case2 => cases h
  | case3 c hc d rest ih =>
    obtain ⟨q, hq, rfl⟩ := Option.map_eq_some_iff.mp h
    rw [Scan.after, List.append_assoc, List.cons_append, List.cons_append]
    unfold scanQuoted?
    simp [hc, ih hq, Scan.after]
  | case4 c hslash hmark =>
    cases h
    obtain rfl : c = mark := by simpa using hmark
    exact closes (by simpa using hslash)
  | case5 c hslash hmark d rest hd ih =>
    obtain ⟨q, hq, rfl⟩ := Option.map_eq_some_iff.mp h
    rw [Scan.after, List.append_assoc, List.cons_append, List.cons_append]
    unfold scanQuoted?
    simp [hslash, hmark, hd, ih hq, Scan.after]
  | case6 c hslash hmark d rest hd =>
    cases h
    obtain rfl : c = mark := by simpa using hmark
    exact closes (by simpa using hslash)
  | case7 c cs hslash hmark ih =>
    obtain ⟨q, hq, rfl⟩ := Option.map_eq_some_iff.mp h
    rw [Scan.after, List.append_assoc, List.cons_append]
    unfold scanQuoted?
    simp [hslash, hmark, ih hq, Scan.after]

/-! ## Numbers -/

/-- What was taken as digits. -/
theorem digits_of_scanDigits? {cs : List Char} {s : Scan} (h : scanDigits? cs = some s) :
    s.taken ≠ [] ∧ ∀ c ∈ s.taken, c.isDigit = true := by
  refine ⟨(splits_scanDigits? h).taken, ?_⟩
  unfold scanDigits? at h
  dsimp only at h
  split at h
  · cases h
  · cases h
    exact fun c hc => List.all_eq_true.mp List.all_takeWhile c hc

/-- What was taken as digits is taken again where no digit follows. -/
theorem scanDigits?_moved {cs rest : List Char} {s : Scan} (h : scanDigits? cs = some s)
    (ends : ∀ c ∈ rest.head?, c.isDigit = false) :
    scanDigits? (s.taken ++ rest) = some ⟨s.taken, rest⟩ :=
  scanDigits?_run (digits_of_scanDigits? h).1 (digits_of_scanDigits? h).2 ends

/-- What was taken as an exponent begins with its letter. -/
theorem opens_of_scanExponent? {cs : List Char} {s : Scan} (h : scanExponent? cs = some s) :
    ∀ c ∈ s.taken.head?, c = 'e' ∨ c = 'E' := by
  unfold scanExponent? at h
  split at h
  · next d ds =>
    split at h
    · next letter =>
      have letter : d = 'e' ∨ d = 'E' := by simpa using letter
      split at h
      all_goals
        obtain ⟨q, -, rfl⟩ := Option.map_eq_some_iff.mp h
        intro c hc
        cases hc
        exact letter
    · cases h
  · cases h

/-- What was taken as an exponent is taken again where no digit follows. -/
theorem scanExponent?_moved {cs rest : List Char} {s : Scan} (h : scanExponent? cs = some s)
    (ends : ∀ c ∈ rest.head?, c.isDigit = false) :
    scanExponent? (s.taken ++ rest) = some ⟨s.taken, rest⟩ := by
  unfold scanExponent? at h
  split at h
  · next c ds =>
    split at h
    · next letter =>
      split at h
      · obtain ⟨q, hq, rfl⟩ := Option.map_eq_some_iff.mp h
        simp [Scan.after, scanExponent?, letter, scanDigits?_moved hq ends]
      · obtain ⟨q, hq, rfl⟩ := Option.map_eq_some_iff.mp h
        simp [Scan.after, scanExponent?, letter, scanDigits?_moved hq ends]
      · obtain ⟨q, hq, rfl⟩ := Option.map_eq_some_iff.mp h
        obtain ⟨nonempty, digits⟩ := digits_of_scanDigits? hq
        have moved := scanDigits?_moved hq ends
        obtain ⟨_ | ⟨d, taken⟩, left⟩ := q
        · exact absurd rfl nonempty
        have digit : d.isDigit = true := digits d List.mem_cons_self
        simp only [Scan.after, List.cons_append, List.nil_append, scanExponent?, letter, if_true]
        simp only [List.cons_append] at moved
        -- a digit is neither of the signs
        split
        · next same =>
          cases same
          cases digit
        · next same =>
          cases same
          cases digit
        · rw [moved]
          rfl
    · cases h
  · cases h

/-- An exponent, or nothing, was taken behind a number, and is taken again before a delimiter. -/
theorem exists_withExponent (s : Scan) :
    ∃ tail, (withExponent s).taken = s.taken ++ tail ∧
      (∀ c ∈ tail.head?, c = 'e' ∨ c = 'E') ∧
      ∀ front rest, Bounded rest →
        withExponent ⟨front, tail ++ rest⟩ = ⟨front ++ tail, rest⟩ := by
  cases found : scanExponent? s.rest with
  | none =>
    refine ⟨[], by simp [withExponent, found], by simp, fun front rest bounded => ?_⟩
    rw [List.append_nil]
    exact withExponent_of_bounded bounded
  | some e =>
    refine ⟨e.taken, by simp [withExponent, found, Scan.after], opens_of_scanExponent? found,
      fun front rest bounded => ?_⟩
    have ends := ends_of_bounded not_isDigit_delimiters bounded
    simp [withExponent, scanExponent?_moved found ends, Scan.after]

/-- Behind a number neither a digit nor a point goes on, if an exponent or a delimiter does. -/
theorem ends_of_exponent {tail rest : List Char} (letter : ∀ c ∈ tail.head?, c = 'e' ∨ c = 'E')
    (bounded : Bounded rest) : ∀ c ∈ (tail ++ rest).head?, c.isDigit = false ∧ c ≠ '.' := by
  have delimits : delimiters.all (fun c => !c.isDigit && c != '.') = true := by decide
  intro c hc
  cases tail with
  | nil => simpa using List.all_eq_true.mp delimits c (bounded c hc)
  | cons d tail =>
    obtain rfl : d = c := Option.some.inj hc
    rcases letter d rfl with rfl | rfl <;> decide

/-- A number without a point is read again. -/
theorem scanNumber?_integer {digits tail rest : List Char} (nonempty : digits ≠ [])
    (all : ∀ c ∈ digits, c.isDigit = true) (letter : ∀ c ∈ tail.head?, c = 'e' ∨ c = 'E')
    (bounded : Bounded rest)
    (taken : withExponent ⟨digits, tail ++ rest⟩ = ⟨digits ++ tail, rest⟩) :
    scanNumber? (digits ++ tail ++ rest) = some (.integer, ⟨digits ++ tail, rest⟩) := by
  have ends := ends_of_exponent letter bounded
  have run := scanDigits?_run nonempty all fun c hc => (ends c hc).1
  unfold scanNumber?
  rw [List.append_assoc, run]
  dsimp only
  split
  · next point => exact absurd rfl (ends '.' (by rw [point]; rfl)).2
  · rw [taken]

/-- What was taken as a number is taken again before a delimiter. -/
theorem scanNumber?_moved {cs rest : List Char} {kind : TokenKind} {s : Scan}
    (h : scanNumber? cs = some (kind, s)) (bounded : Bounded rest) :
    scanNumber? (s.taken ++ rest) = some (kind, ⟨s.taken, rest⟩) := by
  unfold scanNumber? at h
  split at h
  · cases h
  next whole found =>
  obtain ⟨nonempty, all⟩ := digits_of_scanDigits? found
  have integer : scanNumber? ((withExponent whole).taken ++ rest) =
      some (.integer, ⟨(withExponent whole).taken, rest⟩) := by
    obtain ⟨tail, taken, letter, again⟩ := exists_withExponent whole
    rw [taken]
    exact scanNumber?_integer nonempty all letter bounded (again _ _ bounded)
  split at h
  · split at h
    · next fraction found' =>
      cases h
      obtain ⟨tail, taken, letter, again⟩ :=
        exists_withExponent (fraction.after (whole.taken ++ ['.']))
      have point : ∀ c ∈ ('.' :: (fraction.taken ++ (tail ++ rest))).head?, c.isDigit = false := by
        intro c hc
        cases hc
        rfl
      have run := scanDigits?_moved found point
      have run' := scanDigits?_moved found' fun c hc => (ends_of_exponent letter bounded c hc).1
      rw [taken]
      simp [Scan.after, scanNumber?, run, run', again _ _ bounded]
    · cases h
      exact integer
  · cases h
    exact integer

/-! ## Marks -/

/-- No operator of two characters ends with a delimiter. -/
theorem scanDoubleMark?_of_bounded {c : Char} {rest : List Char} (bounded : Bounded rest) :
    scanDoubleMark? (c :: rest) = none := by
  unfold scanDoubleMark?
  split
  all_goals first
    | next h =>
      cases h
      exact absurd (bounded_cons.mp bounded) (by decide)
    | rfl

/-- No comment begins with a mark before a delimiter. -/
theorem scanComment?_of_bounded {c : Char} {rest : List Char} (bounded : Bounded rest) :
    scanComment? (c :: rest) = none := by
  unfold scanComment?
  split
  all_goals first
    | next h =>
      cases h
      exact absurd (bounded_cons.mp bounded) (by decide)
    | rfl

/-- The marks are not blank, and are no digits. -/
theorem isBlank_of_markKind? {c : Char} {kind : TokenKind} (h : markKind? c = some kind) :
    isBlank c = false ∧ c.isDigit = false := by
  have plain : marks.all (fun c => !isBlank c && !c.isDigit) = true := by decide
  simpa using List.all_eq_true.mp plain c (mem_marks_of_markKind? h)

/-- A mark that opens nothing is written as it is. -/
theorem writes_mark {c : Char} {kind : TokenKind} (h : markKind? c = some kind)
    (bracket : kind ≠ .lBracket) :
    Writes (String.ofList [c]) [(kind, String.ofList [c])] := by
  intro rest bounded
  obtain ⟨visible, digit⟩ := isBlank_of_markKind? h
  have significant : nextTrivia? (c :: rest) = none := by
    simp [nextTrivia?, Scan.takeWhile, visible, scanComment?_of_bounded bounded]
  have bracketed : scanBracketed? (c :: rest) = none := by
    refine scanBracketed?_cons_eq_none ?_ rest
    rintro rfl
    exact bracket (Option.some.inj h).symm
  have number := scanNumber?_cons_eq_none digit rest
  have found : nextToken? (c :: rest) = some (kind, ⟨[c], rest⟩) := by
    unfold nextToken?
    rw [bracketed, number, scanDoubleMark?_of_bounded bounded, scanMark?, h]
    dsimp only
    split
    · next same =>
      cases same
      cases h
    · next same =>
      cases same
      cases h
    · rfl
  rw [String.toList_ofList]
  exact cutsOff_token significant found

/-- An operator of two characters is written as it is. -/
theorem writes_doubleMark {cs : List Char} {kind : TokenKind} {s : Scan}
    (h : scanDoubleMark? cs = some (kind, s)) :
    Writes (String.ofList s.taken) [(kind, String.ofList s.taken)] := by
  intro rest _
  rw [String.toList_ofList]
  unfold scanDoubleMark? at h
  split at h
  all_goals first
    | cases h
      exact cutsOff_token (nextTrivia?_eq_none (by decide) (by decide) (by decide))
        (s := ⟨_, rest⟩) rfl
    | cases h

/-! ## Tokens -/

/-- **A token is recognized by itself**, unless it is a bracket that encloses nothing. -/
theorem TokenRule.writes {cs : List Char} {kind : TokenKind} {s : Scan}
    (h : TokenRule cs kind s) (bracket : kind ≠ .lBracket) :
    Writes (String.ofList s.taken) [(kind, String.ofList s.taken)] := by
  have quoted {mark : Char} {rest rest' : List Char} {q : Scan} (mem : mark ∉ delimiters)
      (closed : scanQuoted? mark rest = some q) (bounded : Bounded rest') :
      scanQuoted? mark (q.taken ++ rest') = some ⟨q.taken, rest'⟩ :=
    scanQuoted?_moved closed fun same => mem (bounded mark same)
  cases h with
  | text opened closed =>
    intro rest bounded
    rw [String.toList_ofList]
    refine cutsOff_token (s := ⟨_, rest⟩)
      (nextTrivia?_eq_none (by decide) (by decide) (by decide)) ?_
    simp [Scan.after, nextToken?, quoted (by decide) closed bounded]
  | quotedName opened closed =>
    intro rest bounded
    rw [String.toList_ofList]
    refine cutsOff_token (s := ⟨_, rest⟩)
      (nextTrivia?_eq_none (by decide) (by decide) (by decide)) ?_
    simp [Scan.after, nextToken?, quoted (by decide) closed bounded]
  | bracketed found =>
    obtain ⟨name, nonempty, plain, taken⟩ := bracketed_of_scanBracketed? found
    rw [taken]
    exact writes_bracketed nonempty plain
  | number found =>
    intro rest bounded
    obtain ⟨-, c, ds, taken, digit⟩ := number_of_scanNumber? found
    have moved := scanNumber?_moved found bounded
    rw [taken] at moved ⊢
    rw [String.toList_ofList]
    exact cutsOff_number digit moved
  | doubleMark found => exact writes_doubleMark found
  | mark found =>
    obtain _ | ⟨c, cs⟩ := cs
    · cases found
    obtain ⟨k, hk, same⟩ := Option.map_eq_some_iff.mp found
    cases same
    exact writes_mark hk bracket
  | word found =>
    obtain _ | ⟨c, cs⟩ := cs
    · cases found
    obtain ⟨word, kinds⟩ := isWord_of_scanWord? found
    rw [kinds]
    exact writes_word word

/-- The words of a text are recognized by themselves, brackets that enclose nothing apart. -/
theorem writes_of_cuts {cs : List Char} {ws : List Word} (h : Cuts cs ws)
    (bracket : ∀ w ∈ ws, w.1 ≠ .lBracket) : ∀ w ∈ ws, Writes w.2 [w] := by
  induction h with
  | done => simp
  | trivia found more ih => exact ih bracket
  | token significant found more ih =>
    obtain ⟨first, others⟩ := List.forall_mem_cons.mp bracket
    refine List.forall_mem_cons.mpr ⟨?_, ih others⟩
    exact (tokenRule_of_nextToken? found).writes first

/-! ## Whole texts -/

/-- The spellings of tokens with single blanks between them. -/
def spacedOut (tokens : List Token) : String :=
  " ".intercalate (tokens.map (·.lexeme))

/-- What a token adds to the words of a text: the end of input is not written. -/
def Token.written (t : Token) : List Word :=
  if t.kind == .eof then [] else [t.word]

theorem Token.written_of_visible {t : Token} (visible : t.kind ≠ .eof) : t.written = [t.word] := by
  simp [Token.written, visible]

/-- Tokens that are recognized by themselves are recognized with single blanks between them. -/
theorem writes_spacedOut {tokens : List Token} (h : ∀ t ∈ tokens, Writes t.lexeme t.written) :
    Writes (spacedOut tokens) (tokens.flatMap Token.written) := by
  induction tokens with
  | nil => exact fun rest _ => .refl rest
  | cons t tokens ih =>
    obtain ⟨first, others⟩ := List.forall_mem_cons.mp h
    cases tokens with
    | nil => simpa [spacedOut] using first
    | cons u tokens =>
      intro rest bounded
      have next := (cutsOff_space _).trans (ih others rest bounded)
      have whole := (first _ (by simp [delimiters])).trans next
      simpa [spacedOut] using whole

/-- The tokens of a text end with the end of input, which stands nowhere else. -/
theorem Lexed.exists_eof {p : Position} {cs : List Char} {tokens : List Token}
    (h : Lexed p cs tokens) :
    ∃ front q, tokens = front ++ [.eof q] ∧ ∀ t ∈ front, t.kind ≠ .eof := by
  induction h with
  | @done p => exact ⟨[], p, rfl, by simp⟩
  | trivia _ _ ih => exact ih
  | token _ found _ ih =>
    obtain ⟨front, q, rfl, visible⟩ := ih
    have hkind := (tokenRule_of_nextToken? found).kind_ne_eof
    exact ⟨_ :: front, q, rfl, List.forall_mem_cons.mpr ⟨hkind, visible⟩⟩

/-- The words of a text, and its tokens. -/
theorem exists_eof_of_tokenize {source : String} {tokens : List Token}
    (h : tokenize source = .ok tokens) :
    ∃ front q, tokens = front ++ [.eof q] ∧ (∀ t ∈ front, t.kind ≠ .eof) ∧
      tokens.takeWhile (·.kind != .eof) = front ∧ Cuts source.toList (front.map Token.word) := by
  obtain ⟨front, q, rfl, visible⟩ := (lexed_of_tokensFrom h).exists_eof
  have stops : (front ++ [Token.eof q]).takeWhile (·.kind != .eof) = front := by
    rw [List.takeWhile_append_of_pos fun t ht => by simpa using visible t ht]
    simp [Token.eof]
  refine ⟨front, q, rfl, visible, stops, ?_⟩
  rw [← stops]
  exact (lexed_of_tokensFrom h).cuts

/-- **The tokens of a text that is written out anew** say what the tokens of the text say.  It does
not matter whether the end of input counts among the spellings: it is empty. -/
theorem tokenize_spacedOut {source : String} {tokens : List Token}
    (h : tokenize source = .ok tokens) (bracket : ∀ t ∈ tokens, t.kind ≠ .lBracket)
    {text : String} (written : text = spacedOut tokens ∨ text = spacedOut tokens.dropLast) :
    ∃ tokens', tokenize text = .ok tokens' ∧
      tokens'.map Token.word = tokens.map Token.word := by
  obtain ⟨front, q, rfl, visible, -, cut⟩ := exists_eof_of_tokenize h
  have alone := writes_of_cuts cut fun w hw => by
    obtain ⟨t, ht, rfl⟩ := List.mem_map.mp hw
    exact bracket t (List.mem_append_left _ ht)
  have each : ∀ t ∈ front, Writes t.lexeme t.written := by
    intro t ht
    rw [Token.written_of_visible (visible t ht)]
    exact alone t.word (List.mem_map_of_mem ht)
  have words : front.flatMap Token.written = front.map Token.word := by
    rw [List.flatMap_def, List.map_congr_left fun t ht => Token.written_of_visible (visible t ht)]
    exact (List.map_eq_flatMap ..).symm
  have cut' : Cuts text.toList (front.map Token.word) := by
    rcases written with rfl | rfl
    · have stop : Writes (Token.eof q).lexeme (Token.eof q).written := fun rest _ => .refl rest
      have whole := writes_spacedOut (List.forall_mem_append.mpr
        ⟨each, List.forall_mem_singleton.mpr stop⟩)
      simpa [words, Token.written, Token.eof] using whole.cuts
    · have whole := writes_spacedOut each
      rw [words] at whole
      simpa using whole.cuts
  obtain ⟨tokens', htokens', said⟩ := cuts_iff_tokenize.mp cut'
  obtain ⟨front', q', rfl, -, stops, -⟩ := exists_eof_of_tokenize htokens'
  rw [stops] at said
  refine ⟨_, htokens', ?_⟩
  rw [List.map_append, List.map_append, said]
  rfl

/-! ## Parsing -/

/-- What is read of tokens that say the same. -/
theorem body_of_words {tokens tokens' : List Token}
    (same : tokens'.map Token.word = tokens.map Token.word) :
    (TokenStream.ofTokens tokens').body.map Token.word =
      (TokenStream.ofTokens tokens).body.map Token.word := by
  have before (ts : List Token) : (ts.takeWhile (·.kind != .eof)).map Token.word =
      (ts.map Token.word).takeWhile (·.1 != .eof) := by
    rw [List.takeWhile_map]
    rfl
  rw [body_ofTokens, body_ofTokens, before, before, same]

/-- Texts whose tokens say the same are parsed into the same tree, whether or not the parser
accepts them. -/
theorem tree_of_words {text source : String} {tokens tokens' : List Token}
    (h : tokenize source = .ok tokens) (h' : tokenize text = .ok tokens')
    (same : tokens'.map Token.word = tokens.map Token.word) :
    (parse text).tree = (parse source).tree ∧
      (parse text).success = (parse source).success := by
  have agrees := agrees_parseExpression (body_of_words same)
  rw [parse, parse, parseWith, parseWith, h', h]
  dsimp only
  generalize (TokenStream.ofTokens tokens').parseExpression = r' at agrees
  generalize (TokenStream.ofTokens tokens).parseExpression = r at agrees
  cases agrees with
  | error same => exact ⟨rfl, rfl⟩
  | ok tree same =>
    obtain ⟨rfl, rfl⟩ | ⟨t, rest, t', rest', rfl, rfl, -⟩ := cases_of_words same
    · exact ⟨rfl, rfl⟩
    · exact ⟨rfl, rfl⟩

/-- **No phrase holds a bare bracket.** -/
theorem Derives.kind_ne_lBracket {scope : Scope} {seg : List Token} {phrase : Phrase}
    (h : Derives scope seg phrase) : ∀ t ∈ seg, t.kind ≠ .lBracket := by
  have name {k : TokenKind} (hk : k.isName = true) : k ≠ .lBracket := by
    rintro rfl
    cases hk
  have constant {k : TokenKind} {value : Literal} (hk : IsConstant k value) : k ≠ .lBracket := by
    rintro rfl
    cases hk
  have operator {k : TokenKind} {op : BinaryOp} {n : Nat} (hk : JoinsAt k op n) :
      k ≠ .lBracket := by
    rintro rfl
    cases hk
  induction h with
  | ofBindings _ ih | ofLevel _ ih | moreBindings _ ih | next _ ih | operand _ ih | unsigned _ ih
  | unraised _ ih | unapplied _ ih | bareName _ ih => exact ih
  | noArguments | noMore => simp
  | bind hvar hname heq _ _ ih ih' => grind
  | returned hword _ ih => grind
  | join _ hop _ ih ih' =>
    have other := operator hop
    grind
  | negate ht _ ih | not ht _ _ ih => grind
  | raise _ ht _ ih ih' => grind
  | apply _ hleft _ hright _ ih ih' => grind
  | namedFunction ht | column ht | «variable» ht => simp [ht]
  | operatorWord ht => grind [Token.isOperatorWord]
  | someArguments _ _ ih ih' => grind
  | more hcomma _ _ ih ih' => grind
  | constant h => simp [constant h]
  | constantCall h hleft hright => simp [constant h, hleft, hright]
  | literal h => cases h with
    | integer kind | float kind | string kind => simp [kind]
  | qualified ht hcolumn => simp [name ht, hcolumn]
  | table ht => simp [name ht]
  | group hleft _ hright ih => grind

/-- The parser accepts no bare bracket. -/
theorem kind_ne_lBracket_of_success {source : String} {tokens : List Token}
    (h : tokenize source = .ok tokens) (accepted : (parse source).success = true) :
    ∀ t ∈ tokens, t.kind ≠ .lBracket := by
  have failure : (parse source).failure = none := by simpa [ParseOutcome.success] using accepted
  obtain ⟨tokens', h', derived⟩ := parse_iff_exists_tokens.mp ⟨failure, rfl⟩
  obtain rfl : tokens = tokens' := Except.ok.inj (h.symm.trans h')
  obtain ⟨front, q, rfl, -, stops, -⟩ := exists_eof_of_tokenize h
  rw [stops] at derived
  refine List.forall_mem_append.mpr ⟨derived.kind_ne_lBracket, ?_⟩
  simp [Token.eof]

/-- A result that is there is the result. -/
theorem eq_ok_of_toOption {ε α : Type} {x : Except ε α} {a : α} (h : x.toOption = some a) :
    x = .ok a := by
  cases x with
  | error e => cases h
  | ok b =>
    cases h
    rfl

/-- **Layout and comments are insignificant.**  The parser accepts no bare bracket.  The spellings
of the tokens of a text that has none, one blank between each two, have the same kinds and spellings
again, and are parsed into the same tree, whether or not the parser accepts it. -/
theorem parse_spacedOut {source : String} {tokens : List Token}
    (h : tokenize source = .ok tokens) :
    ((parse source).success = true → ∀ t ∈ tokens, t.kind ≠ .lBracket) ∧
    ((∀ t ∈ tokens, t.kind ≠ .lBracket) → ∀ text : String,
      text = spacedOut tokens ∨ text = spacedOut tokens.dropLast →
        (∃ tokens', tokenize text = .ok tokens' ∧
          tokens'.map (fun t => (t.kind, t.lexeme)) = tokens.map fun t => (t.kind, t.lexeme)) ∧
        (parse text).tree = (parse source).tree ∧
        (parse text).success = (parse source).success) := by
  refine ⟨kind_ne_lBracket_of_success h, fun bracket text written => ?_⟩
  obtain ⟨tokens', h', same⟩ := tokenize_spacedOut h bracket written
  exact ⟨⟨tokens', h', same⟩, tree_of_words h h' same⟩

/-- Comments between the words, and a sign apart from its number. -/
theorem parse_spacedOut_commented :
    (∃ tokens, tokenize "1.5e-3 <= [a b] && \"x\"\"y\" <> - 2" = .ok tokens ∧
      tokens.map (fun t => (t.kind, t.lexeme)) =
        [(.float, "1.5e-3"), (.ltEq, "<="), (.columnRef, "[a b]"), (.and, "&&"),
          (.string, "\"x\"\"y\""), (.notEq, "<>"), (.minus, "-"), (.integer, "2"), (.eof, "")]) ∧
    (parse "1.5e-3 <= [a b] && \"x\"\"y\" <> - 2").tree =
      (parse "1.5e-3<=[a b]//c\n&&\"x\"\"y\"<>-/* - */2").tree := by
  have h : tokenize "1.5e-3<=[a b]//c\n&&\"x\"\"y\"<>-/* - */2" = .ok
      [⟨.float, "1.5e-3", ⟨1, 1, 0⟩⟩, ⟨.ltEq, "<=", ⟨1, 7, 6⟩⟩, ⟨.columnRef, "[a b]", ⟨1, 9, 8⟩⟩,
        ⟨.and, "&&", ⟨2, 1, 17⟩⟩, ⟨.string, "\"x\"\"y\"", ⟨2, 3, 19⟩⟩, ⟨.notEq, "<>", ⟨2, 9, 25⟩⟩,
        ⟨.minus, "-", ⟨2, 11, 27⟩⟩, ⟨.integer, "2", ⟨2, 19, 35⟩⟩, .eof ⟨2, 20, 36⟩] :=
    eq_ok_of_toOption (by decide +kernel)
  have anew := (parse_spacedOut h).2 (by decide) _ (.inr rfl)
  exact ⟨anew.1, anew.2.1⟩

end MeasureSql.Dax
