import MeasureSql.Proofs.Dax.Pieces

/-!
# How words are spelled

The rule that cuts a word off a text says how the word is spelled: a quoted text has its marks
around it and no unescaped mark inside, a name in brackets is not empty, a number begins with a
digit, and a bare word has the kind that its letters make.

## Main definitions

* `Genuine` — a word is spelled as its kind asks for.

## Main results

* `genuine_of_cuts` — the words of a text are genuine.
-/

namespace MeasureSql.Dax

open Text

/-- How a word is spelled, by its kind. -/
structure Genuine (w : Word) : Prop where
  minus : w.1 = .minus → w.2 = "-"
  text : w.1 = .string → ∃ body, Escaped '"' body ∧ w.2 = String.ofList ('"' :: (body ++ ['"']))
  quotedName : w.1 = .quotedIdentifier →
    ∃ body, Escaped '\x27' body ∧ w.2 = String.ofList ('\x27' :: (body ++ ['\x27']))
  bracketed : w.1 = .columnRef → ∃ name : String, name ≠ "" ∧ ']' ∉ name.toList ∧
    w.2 = "[" ++ name ++ "]"
  number : w.1 = .integer ∨ w.1 = .float → ∃ c cs, w.2 = String.ofList (c :: cs) ∧ c.isDigit = true
  name : w.1 = .identifier ∨ w.1 = .keyword → isWord w.2 = true ∧ TokenKind.ofWord w.2 = w.1
  operator : w.1 = .and ∨ w.1 = .or ∨ w.1 = .not → w.2.toList.all Char.isAlpha = true →
    isWord w.2 = true ∧ TokenKind.ofWord w.2 = w.1

/-! ## Rules -/

/-- What was taken as a quoted text. -/
theorem escaped_of_scanQuoted? {mark : Char} {cs : List Char} {s : Scan}
    (h : scanQuoted? mark cs = some s) : ∃ body, Escaped mark body ∧ s.taken = body ++ [mark] := by
  fun_induction scanQuoted? mark cs generalizing s with
  | case1 => cases h
  | case2 => cases h
  | case3 c hc d rest ih =>
    obtain ⟨q, hq, rfl⟩ := Option.map_eq_some_iff.mp h
    obtain ⟨body, escaped, taken⟩ := ih hq
    obtain rfl : c = '\\' := by simpa using hc
    exact ⟨'\\' :: d :: body, .backslash d escaped, by simp [Scan.after, taken]⟩
  | case4 c hslash hmark =>
    cases h
    obtain rfl : c = mark := by simpa using hmark
    exact ⟨[], .nil, rfl⟩
  | case5 c hslash hmark d rest hd ih =>
    obtain ⟨q, hq, rfl⟩ := Option.map_eq_some_iff.mp h
    obtain ⟨body, escaped, taken⟩ := ih hq
    obtain rfl : c = mark := by simpa using hmark
    obtain rfl : d = c := by simpa using hd
    exact ⟨d :: d :: body, .twice (by simpa using hslash) escaped, by simp [Scan.after, taken]⟩
  | case6 c hslash hmark d rest hd =>
    cases h
    obtain rfl : c = mark := by simpa using hmark
    exact ⟨[], .nil, rfl⟩
  | case7 c cs hslash hmark ih =>
    obtain ⟨q, hq, rfl⟩ := Option.map_eq_some_iff.mp h
    obtain ⟨body, escaped, taken⟩ := ih hq
    exact ⟨c :: body, .plain (by simpa using hslash) (by simpa using hmark) escaped,
      by simp [Scan.after, taken]⟩

/-- What was taken as a name in brackets. -/
theorem bracketed_of_scanBracketed? {cs : List Char} {s : Scan}
    (h : scanBracketed? cs = some s) :
    ∃ name : String, name ≠ "" ∧ ']' ∉ name.toList ∧
      String.ofList s.taken = "[" ++ name ++ "]" := by
  obtain ⟨name, nonempty, plain, -, taken⟩ := scanBracketed?_eq_some_iff.mp h
  exact ⟨String.ofList name, by simpa [← String.toList_inj] using nonempty, by simpa using plain,
    by simp [← String.toList_inj, taken]⟩

/-- The kind and the first character of a number. -/
theorem number_of_scanNumber? {cs : List Char} {kind : TokenKind} {s : Scan}
    (h : scanNumber? cs = some (kind, s)) :
    (kind = .integer ∨ kind = .float) ∧ ∃ c ds, s.taken = c :: ds ∧ c.isDigit = true := by
  have splits := splits_scanNumber? h
  have first : ∃ c ds, cs = c :: ds ∧ c.isDigit = true := by
    cases cs with
    | nil => cases h
    | cons c ds =>
      refine ⟨c, ds, rfl, ?_⟩
      cases digit : c.isDigit with
      | true => rfl
      | false => cases h.symm.trans (scanNumber?_cons_eq_none digit ds)
  have kinds : kind = .integer ∨ kind = .float := by
    unfold scanNumber? at h
    split at h
    · cases h
    · split at h
      · split at h
        · cases h
          exact .inr rfl
        · cases h
          exact .inl rfl
      · cases h
        exact .inl rfl
  refine ⟨kinds, ?_⟩
  obtain ⟨c, ds, rfl, digit⟩ := first
  have append := splits.append
  obtain ⟨taken, rest⟩ := s
  obtain _ | ⟨d, taken⟩ := taken
  · exact absurd rfl splits.taken
  · cases append
    exact ⟨_, _, rfl, digit⟩

/-- What was taken as a bare word. -/
theorem isWord_of_scanWord? {c : Char} {cs : List Char} {kind : TokenKind} {s : Scan}
    (h : scanWord? (c :: cs) = some (kind, s)) :
    isWord (String.ofList s.taken) = true ∧ kind = .ofWord (String.ofList s.taken) := by
  obtain ⟨opens, rfl, kinds⟩ := scanWord?_eq_some h
  refine ⟨?_, kinds⟩
  have parts : (cs.takeWhile isIdentPart).all isIdentPart = true := List.all_takeWhile
  simp [isWord, Scan.after, Scan.takeWhile, opensWord, opens, parts]

/-- The kinds that say nothing about the spelling. -/
def TokenKind.freeKinds : List TokenKind :=
  [.plus, .star, .slash, .caret, .eq, .notEq, .lt, .ltEq, .gt, .gtEq, .ampersand, .lParen, .rParen,
    .lBracket, .rBracket, .comma, .semicolon, .dot]

theorem genuine_of_freeKinds {w : Word} (free : w.1 ∈ TokenKind.freeKinds) : Genuine w := by
  have apart : ∀ k, k ∉ TokenKind.freeKinds → w.1 ≠ k := fun k no same => no (same ▸ free)
  exact {
    minus := fun h => absurd h (apart _ (by decide))
    text := fun h => absurd h (apart _ (by decide))
    quotedName := fun h => absurd h (apart _ (by decide))
    bracketed := fun h => absurd h (apart _ (by decide))
    number := fun h => h.elim (absurd · (apart _ (by decide))) (absurd · (apart _ (by decide)))
    name := fun h => h.elim (absurd · (apart _ (by decide))) (absurd · (apart _ (by decide)))
    operator := fun h => h.elim (absurd · (apart _ (by decide))) fun h =>
      h.elim (absurd · (apart _ (by decide))) (absurd · (apart _ (by decide))) }

theorem genuine_of_isWord {kind : TokenKind} {name : String} (word : isWord name = true)
    (kinds : kind = .ofWord name) : Genuine (kind, name) := by
  have apart : ∀ k, k ∉ TokenKind.wordKinds → kind ≠ k := by
    rintro k no rfl
    exact no (kinds ▸ ofWord_mem_wordKinds name)
  exact {
    minus := fun h => absurd h (apart _ (by decide))
    text := fun h => absurd h (apart _ (by decide))
    quotedName := fun h => absurd h (apart _ (by decide))
    bracketed := fun h => absurd h (apart _ (by decide))
    number := fun h => h.elim (absurd · (apart _ (by decide))) (absurd · (apart _ (by decide)))
    name := fun _ => ⟨word, kinds.symm⟩
    operator := fun _ _ => ⟨word, kinds.symm⟩ }

/-- **A rule spells its word.** -/
theorem TokenRule.genuine {cs : List Char} {kind : TokenKind} {s : Scan}
    (h : TokenRule cs kind s) : Genuine (kind, String.ofList s.taken) := by
  cases h with
  | text opened closed =>
    obtain ⟨body, escaped, taken⟩ := escaped_of_scanQuoted? closed
    exact ⟨by simp, fun _ => ⟨body, escaped, by simp [Scan.after, taken]⟩, by simp, by simp,
      by simp, by simp, by simp⟩
  | quotedName opened closed =>
    obtain ⟨body, escaped, taken⟩ := escaped_of_scanQuoted? closed
    exact ⟨by simp, by simp, fun _ => ⟨body, escaped, by simp [Scan.after, taken]⟩, by simp,
      by simp, by simp, by simp⟩
  | bracketed found =>
    exact ⟨by simp, by simp, by simp, fun _ => bracketed_of_scanBracketed? found, by simp, by simp,
      by simp⟩
  | number found =>
    obtain ⟨kinds, c, ds, taken, digit⟩ := number_of_scanNumber? found
    rw [taken]
    rcases kinds with rfl | rfl
    · exact ⟨by simp, by simp, by simp, by simp, fun _ => ⟨c, ds, rfl, digit⟩, by simp, by simp⟩
    · exact ⟨by simp, by simp, by simp, by simp, fun _ => ⟨c, ds, rfl, digit⟩, by simp, by simp⟩
  | doubleMark found =>
    have symbol : s.taken.all Char.isAlpha = false ∧
        kind ∈ TokenKind.and :: .or :: TokenKind.freeKinds := by
      unfold scanDoubleMark? at found
      split at found
      all_goals first
        | cases found
          exact ⟨rfl, by decide⟩
        | cases found
    obtain ⟨symbol, kinds⟩ := symbol
    have notSpelled : ¬(String.ofList s.taken).toList.all Char.isAlpha = true := by
      rw [String.toList_ofList, symbol]
      exact Bool.false_ne_true
    rcases List.mem_cons.mp kinds with rfl | kinds
    · exact ⟨by simp, by simp, by simp, by simp, by simp, by simp,
        fun _ all => absurd all notSpelled⟩
    rcases List.mem_cons.mp kinds with rfl | free
    · exact ⟨by simp, by simp, by simp, by simp, by simp, by simp,
        fun _ all => absurd all notSpelled⟩
    · exact genuine_of_freeKinds free
  | mark found =>
    obtain _ | ⟨c, cs⟩ := cs
    · cases found
    obtain ⟨k, hk, same⟩ := Option.map_eq_some_iff.mp found
    cases same
    have kinds : (kind = .minus ∧ c = '-') ∨ kind ∈ TokenKind.freeKinds := by
      unfold markKind? at hk
      split at hk
      all_goals first
        | cases hk
          decide
        | cases hk
    rcases kinds with ⟨rfl, rfl⟩ | free
    · exact ⟨fun _ => rfl, by simp, by simp, by simp, by simp, by simp, by simp⟩
    · exact genuine_of_freeKinds free
  | word found =>
    obtain _ | ⟨c, cs⟩ := cs
    · cases found
    obtain ⟨word, kinds⟩ := isWord_of_scanWord? found
    exact genuine_of_isWord word kinds

/-- **The words of a text are genuine.** -/
theorem genuine_of_cuts {cs : List Char} {ws : List Word} (h : Cuts cs ws) :
    ∀ w ∈ ws, Genuine w := by
  induction h with
  | done => simp
  | trivia found more ih => exact ih
  | token significant found more ih =>
    intro w hw
    rcases List.mem_cons.mp hw with rfl | hw
    · exact (tokenRule_of_nextToken? found).genuine
    · exact ih w hw

end MeasureSql.Dax
