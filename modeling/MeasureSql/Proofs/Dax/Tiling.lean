import MeasureSql.Proofs.Dax.Cutting

/-!
# Tokens tile the source

The tokens of a text stand in it one after the other, each at its offset in bytes, and nothing but
blanks and comments is left between them.  A line comment goes on to the end of its line and a
block comment to its first closing mark; what is left open is no comment, and its marks are tokens.

## Main definitions

* `Insignificant` — a text of blanks and comments, in front of a given text.
* `Tiles` — tokens with insignificant text around them make up a text.
* `Token.StandsIn` — a token is the text at its offset.

## Main results

* `insignificant_of_nextTrivia?` — what is passed over is insignificant.
* `Lexed.tiles` — the tokens of a text tile it.
* `tokenize_tiles` — what that means for a whole source.
-/

namespace MeasureSql.Dax

open Text

/-- A text of blanks, line comments and closed block comments, in front of `rest`. -/
inductive Insignificant (rest : List Char) : List Char → Prop
  | done : Insignificant rest []
  | blank {c : Char} {more : List Char} (blank : isBlank c = true)
      (h : Insignificant rest more) : Insignificant rest (c :: more)
  /-- The body has no line break, and a line break or the end of the source comes after it. -/
  | line {mark body more : List Char} (mark_eq : mark = ['/', '/'] ∨ mark = ['-', '-'])
      (unbroken : '\n' ∉ body) (ended : ∀ c ∈ (more ++ rest).head?, c = '\n')
      (h : Insignificant rest more) : Insignificant rest (mark ++ body ++ more)
  /-- The closing mark is the first one after the opening mark. -/
  | block {body more : List Char} (first : ¬ ['*', '/'] <:+: body ++ ['*'])
      (h : Insignificant rest more) :
      Insignificant rest (['/', '*'] ++ body ++ ['*', '/'] ++ more)

/-- The number of bytes of a text. -/
def byteCount (cs : List Char) : Nat :=
  (String.ofList cs).utf8ByteSize

@[simp]
theorem byteCount_nil : byteCount [] = 0 := rfl

@[simp]
theorem byteCount_append (cs ds : List Char) :
    byteCount (cs ++ ds) = byteCount cs + byteCount ds := by
  simp [byteCount]

@[simp]
theorem byteCount_cons (c : Char) (cs : List Char) :
    byteCount (c :: cs) = c.utf8Size + byteCount cs := by
  rw [← List.singleton_append, byteCount_append]
  simp [byteCount]

@[simp]
theorem byteCount_toList (s : String) : byteCount s.toList = s.utf8ByteSize := by
  simp [byteCount]

theorem offset_step (p : Position) (c : Char) : (p.step c).offset = p.offset + c.utf8Size := by
  unfold Position.step
  split <;> rfl

theorem offset_advance (p : Position) (cs : List Char) :
    (p.advance cs).offset = p.offset + byteCount cs := by
  induction cs generalizing p with
  | nil => simp [Position.advance]
  | cons c cs ih =>
    rw [byteCount_cons, ← Nat.add_assoc, ← offset_step]
    exact ih (p.step c)

/-- The tokens from an offset on, with insignificant text around them, make up a text. -/
inductive Tiles : Nat → List Char → List Token → Prop
  | stop {offset : Nat} {gap : List Char} {t : Token} (insignificant : Insignificant [] gap)
      (kind : t.kind = .eof) (place : t.position.offset = offset + byteCount gap) :
      Tiles offset gap [t]
  | token {offset : Nat} {gap rest : List Char} {t : Token} {tokens : List Token}
      (insignificant : Insignificant (t.lexeme.toList ++ rest) gap)
      (kind : t.kind ≠ .eof) (nonempty : t.lexeme ≠ "")
      (place : t.position.offset = offset + byteCount gap)
      (more : Tiles (t.position.offset + t.lexeme.utf8ByteSize) rest tokens) :
      Tiles offset (gap ++ (t.lexeme.toList ++ rest)) (t :: tokens)

/-- A token is the text of a source at the token's offset. -/
def Token.StandsIn (source : String) (t : Token) : Prop :=
  ∃ before after : String, source = before ++ t.lexeme ++ after ∧
    before.utf8ByteSize = t.position.offset

/-! ## What is passed over -/

/-- What was taken of a block comment after its opening mark. -/
theorem exists_of_scanBlockComment? {cs : List Char} {s : Scan}
    (h : scanBlockComment? cs = some s) :
    ∃ body, s.taken = body ++ ['*', '/'] ∧ ¬ ['*', '/'] <:+: body ++ ['*'] := by
  fun_induction scanBlockComment? cs generalizing s with
  | case1 => cases h
  | case2 rest =>
    cases h
    exact ⟨[], rfl, by decide⟩
  | case3 c cs other ih =>
    obtain ⟨q, found, rfl⟩ := Option.map_eq_some_iff.mp h
    obtain ⟨body, taken, first⟩ := ih found
    refine ⟨c :: body, by simp [Scan.after, taken], ?_⟩
    -- the mark would begin at `c`, and the scan would have stopped there
    intro closes
    rw [List.cons_append, List.infix_cons_iff] at closes
    rcases closes with closes | closes
    · have append := (splits_scanBlockComment? found).append
      rw [taken] at append
      obtain _ | ⟨d, body⟩ := body
      · simp at closes
      · obtain ⟨rfl, rfl⟩ : c = '*' ∧ d = '/' := by simpa [eq_comm] using closes
        exact other _ rfl append.symm
    · exact first closes

theorem insignificant_line {mark body more rest : List Char}
    (mark_eq : mark = ['/', '/'] ∨ mark = ['-', '-'])
    (left : body.dropWhile (· != '\n') = more ++ rest) (h : Insignificant rest more) :
    Insignificant rest (mark ++ body.takeWhile (· != '\n') ++ more) := by
  refine .line mark_eq ?_ ?_ h
  · intro broken
    simpa using List.all_eq_true.mp List.all_takeWhile _ broken
  · intro c first
    rw [← left] at first
    have := List.head?_dropWhile_not (· != '\n') body
    rw [Option.mem_def.mp first] at this
    simpa using this

/-- **What is passed over is insignificant.** -/
theorem insignificant_of_nextTrivia? {cs more rest : List Char} {s : Scan}
    (found : nextTrivia? cs = some s) (left : s.rest = more ++ rest)
    (h : Insignificant rest more) : Insignificant rest (s.taken ++ more) := by
  have blanks (run : List Char) (all : ∀ c ∈ run, isBlank c = true) :
      Insignificant rest (run ++ more) := by
    induction run with
    | nil => exact h
    | cons c run ih =>
      exact .blank (all c List.mem_cons_self) (ih fun d hd => all d (List.mem_cons_of_mem c hd))
  unfold nextTrivia? at found
  dsimp only at found
  split at found
  · unfold scanComment? at found
    split at found
    · cases found
      exact insignificant_line (.inl rfl) left h
    · cases found
      exact insignificant_line (.inr rfl) left h
    · obtain ⟨q, scanned, rfl⟩ := Option.map_eq_some_iff.mp found
      obtain ⟨body, taken, first⟩ := exists_of_scanBlockComment? scanned
      have whole := Insignificant.block first h
      simpa [Scan.after, taken] using whole
    · cases found
  · cases found
    exact blanks _ fun c hc => List.all_eq_true.mp List.all_takeWhile c hc

/-! ## Tokens -/

/-- Insignificant text in front of tokens that tile the rest. -/
theorem Tiles.pass_over {cs : List Char} {s : Scan} {offset : Nat} {tokens : List Token}
    (found : nextTrivia? cs = some s) (h : Tiles (offset + byteCount s.taken) s.rest tokens) :
    Tiles offset cs tokens := by
  rw [← (splits_nextTrivia? found).append]
  generalize left : s.rest = rest at h
  cases h with
  | stop insignificant kind place =>
    refine .stop ?_ kind ?_
    · exact insignificant_of_nextTrivia? found (by simpa using left) insignificant
    · rw [place, byteCount_append, Nat.add_assoc]
  | token insignificant kind nonempty place more =>
    rw [← List.append_assoc]
    refine .token ?_ kind nonempty ?_ more
    · exact insignificant_of_nextTrivia? found left insignificant
    · rw [place, byteCount_append, Nat.add_assoc]

/-- **The tokens of a text tile it.** -/
theorem Lexed.tiles {p : Position} {cs : List Char} {tokens : List Token}
    (h : Lexed p cs tokens) : Tiles p.offset cs tokens := by
  induction h with
  | done => exact .stop .done rfl rfl
  | trivia found _ ih =>
    rw [offset_advance] at ih
    exact ih.pass_over found
  | @token p cs kind s rest _ found _ ih =>
    rw [offset_advance] at ih
    have rule := tokenRule_of_nextToken? found
    rw [← rule.splits.append]
    have nonempty : String.ofList s.taken ≠ "" := fun empty =>
      rule.splits.taken (by simpa [← String.toList_inj] using empty)
    have next : Tiles p.offset ([] ++ (_ ++ s.rest)) (_ :: rest) :=
      Tiles.token (t := ⟨kind, String.ofList s.taken, p⟩) .done rule.kind_ne_eof nonempty rfl ih
    simpa using next

/-! ## The whole source -/

namespace Tiles

theorem exists_eof {offset : Nat} {cs : List Char} {tokens : List Token}
    (h : Tiles offset cs tokens) :
    ∃ front last, tokens = front ++ [last] ∧ last.kind = .eof ∧
      last.position.offset = offset + byteCount cs ∧
      ∀ t ∈ front, t.kind ≠ .eof ∧ t.lexeme ≠ "" := by
  induction h with
  | stop insignificant kind place => exact ⟨[], _, rfl, kind, place, by simp⟩
  | @token offset gap rest t tokens insignificant kind nonempty place more ih =>
    obtain ⟨front, last, rfl, eof, stops, others⟩ := ih
    refine ⟨t :: front, last, rfl, eof, ?_, ?_⟩
    · rw [stops, place]
      simp only [byteCount_append, byteCount_toList]
      omega
    · intro u hu
      rcases List.mem_cons.mp hu with rfl | hu
      · exact ⟨kind, nonempty⟩
      · exact others u hu

/-- Every token begins after the offset from which the tokens are counted. -/
theorem le_offset {offset : Nat} {cs : List Char} {tokens : List Token}
    (h : Tiles offset cs tokens) : ∀ t ∈ tokens, offset ≤ t.position.offset := by
  induction h with
  | stop insignificant kind place => simp [place]
  | token insignificant kind nonempty place more ih =>
    intro u hu
    rcases List.mem_cons.mp hu with rfl | hu
    · omega
    · have := ih u hu
      omega

theorem pairwise {offset : Nat} {cs : List Char} {tokens : List Token}
    (h : Tiles offset cs tokens) :
    tokens.Pairwise fun t u => t.position.offset + t.lexeme.utf8ByteSize ≤ u.position.offset := by
  induction h with
  | stop => exact List.pairwise_singleton _ _
  | token insignificant kind nonempty place more ih =>
    exact List.pairwise_cons.mpr ⟨more.le_offset, ih⟩

/-- What stands before the text that is tiled does not move its tokens. -/
theorem standsIn {offset : Nat} {cs : List Char} {tokens : List Token}
    (h : Tiles offset cs tokens) {before source : String} (counted : before.utf8ByteSize = offset)
    (whole : source.toList = before.toList ++ cs) :
    ∀ t ∈ tokens, t.kind ≠ .eof → t.StandsIn source := by
  induction h generalizing before with
  | stop insignificant kind place =>
    intro u hu visible
    exact absurd (List.mem_singleton.mp hu ▸ kind) visible
  | @token offset gap rest t tokens insignificant kind nonempty place more ih =>
    have here : (before ++ String.ofList gap).utf8ByteSize = t.position.offset := by
      rw [String.utf8ByteSize_append, counted, place, byteCount]
    intro u hu visible
    rcases List.mem_cons.mp hu with rfl | hu
    · refine ⟨before ++ String.ofList gap, String.ofList rest, ?_, here⟩
      simp [← String.toList_inj, whole]
    · have passed : (before ++ String.ofList gap ++ t.lexeme).utf8ByteSize =
          t.position.offset + t.lexeme.utf8ByteSize := by
        rw [String.utf8ByteSize_append, here]
      exact ih passed (by simp [whole]) u hu visible

end Tiles

/-- **Tokens tile the source.**  The tokens of a source end with the end of input, which stands
behind the last byte and nowhere else.  Every other token is the text at its offset and is not
empty, no token begins before another one has ended, and the text between tokens, before the first
and after the last consists of blanks and comments. -/
theorem tokenize_tiles {source : String} {tokens : List Token}
    (h : tokenize source = .ok tokens) :
    (∃ front last, tokens = front ++ [last] ∧ last.kind = .eof ∧
      last.position.offset = source.utf8ByteSize ∧ ∀ t ∈ front, t.kind ≠ .eof ∧ t.lexeme ≠ "") ∧
    (∀ t ∈ tokens, t.kind ≠ .eof → t.StandsIn source) ∧
    tokens.Pairwise (fun t u => t.position.offset + t.lexeme.utf8ByteSize ≤ u.position.offset) ∧
    Tiles 0 source.toList tokens := by
  have tiles : Tiles 0 source.toList tokens := (lexed_of_tokensFrom h).tiles
  have start : "".utf8ByteSize = 0 := rfl
  refine ⟨?_, tiles.standsIn start (by simp), tiles.pairwise, tiles⟩
  obtain ⟨front, last, same, eof, stops, others⟩ := tiles.exists_eof
  exact ⟨front, last, same, eof, by simpa using stops, others⟩

/-- A letter of two bytes, and a comment to the end of the line beside one that is closed. -/
theorem tokenize_tiles_commented :
    tokenize "[é] -- a\n/* - */ + 1" =
        .ok [⟨.columnRef, "[é]", ⟨1, 1, 0⟩⟩, ⟨.plus, "+", ⟨2, 9, 18⟩⟩, ⟨.integer, "1", ⟨2, 11, 20⟩⟩,
          .eof ⟨2, 12, 21⟩] ∧
      Tiles 0 "[é] -- a\n/* - */ + 1".toList
        [⟨.columnRef, "[é]", ⟨1, 1, 0⟩⟩, ⟨.plus, "+", ⟨2, 9, 18⟩⟩, ⟨.integer, "1", ⟨2, 11, 20⟩⟩,
          .eof ⟨2, 12, 21⟩] := by
  have h : tokenize "[é] -- a\n/* - */ + 1" =
      .ok [⟨.columnRef, "[é]", ⟨1, 1, 0⟩⟩, ⟨.plus, "+", ⟨2, 9, 18⟩⟩,
        ⟨.integer, "1", ⟨2, 11, 20⟩⟩, .eof ⟨2, 12, 21⟩] := by rfl
  exact ⟨h, (tokenize_tiles h).2.2.2⟩

end MeasureSql.Dax
