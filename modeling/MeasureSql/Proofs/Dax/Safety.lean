import MeasureSql.Proofs.Dax.Following

/-!
# The parser is safe

Any list of tokens has an end of input, or gets one behind its last token.  A cursor at a place up
to the first end of input is a cursor in front of it, so what follows the parser stays in the list:
it never asks for a token that is not there, whatever the tokens are.

## Main results

* `exists_place` — a place in a list is a cursor in front of an end of input.
* `Entry.walk_safe` — the parser is safe on arbitrary tokens.
-/

namespace MeasureSql.Dax

/-- The first end of input stands behind tokens that are none. -/
theorem findIdx_eof {front : List Token} (clear : Clear front) (z : Ending) :
    (front ++ z.last :: z.behind).findIdx (·.kind == .eof) = front.length := by
  induction front with
  | nil => simp [List.findIdx_cons, z.eof]
  | cons t front ih =>
    have visible : (t.kind == .eof) = false := beq_eq_false_iff_ne.mpr clear.head
    simp [List.findIdx_cons, visible, ih clear.tail]

/-- A list with an end of input has a first one. -/
theorem exists_ending {tokens : List Token} (h : ∃ t ∈ tokens, t.kind = .eof) :
    ∃ (front : List Token) (z : Ending), tokens = front ++ z.last :: z.behind ∧ Clear front := by
  induction tokens with
  | nil =>
    obtain ⟨t, ht, -⟩ := h
    cases ht
  | cons t tokens ih =>
    by_cases eof : t.kind = .eof
    · exact ⟨[], ⟨t, tokens, eof⟩, rfl, by simp [Clear]⟩
    · obtain ⟨u, hu, last⟩ := h
      have later : u ∈ tokens := by
        rcases List.mem_cons.mp hu with rfl | later
        · exact absurd last eof
        · exact later
      obtain ⟨front, z, rfl, clear⟩ := ih ⟨u, later, last⟩
      refine ⟨t :: front, z, rfl, fun v hv => ?_⟩
      rcases List.mem_cons.mp hv with rfl | hv
      · exact eof
      · exact clear v hv

/-- What the parser sees of tokens with an end of input behind them. -/
theorem ofTokens_ending {ahead : List Token} (clear : Clear ahead) (z : Ending) :
    TokenStream.ofTokens (ahead ++ z.last :: z.behind) = ⟨ahead, z.last.position⟩ := by
  have body : (ahead ++ z.last :: z.behind).takeWhile (·.kind != .eof) = ahead := by
    rw [List.takeWhile_append_of_pos fun t ht => by simpa using clear t ht]
    simp [z.eof]
  have stop : (ahead ++ z.last :: z.behind).find? (·.kind == .eof) = some z.last := by
    have none : ahead.find? (·.kind == .eof) = none :=
      List.find?_eq_none.mpr fun t ht => by simpa using clear t ht
    simp [List.find?_append, none, z.eof]
  simp only [TokenStream.ofTokens, body, stop]

/-- There is an end of input in a list that was completed. -/
theorem exists_ending_withEof (tokens : List Token) : ∃ (front : List Token) (z : Ending),
    withEof tokens = front ++ z.last :: z.behind ∧ Clear front ∧ front.length ≤ tokens.length := by
  have last : ∃ t ∈ withEof tokens, t.kind = .eof := by
    unfold withEof
    split
    · next eof =>
      simp only [beq_iff_eq, Option.map_eq_some_iff] at eof
      obtain ⟨t, ht, eof⟩ := eof
      exact ⟨t, List.mem_of_getLast? ht, eof⟩
    · exact ⟨_, List.mem_append_right _ (List.mem_singleton_self _), rfl⟩
  obtain ⟨front, z, same, clear⟩ := exists_ending last
  refine ⟨front, z, same, clear, ?_⟩
  have length : (withEof tokens).length ≤ tokens.length + 1 := by
    unfold withEof
    split <;> simp
  rw [same, List.length_append, List.length_cons] at length
  omega

/-- A place up to the first end of input, with the tokens before and behind it. -/
theorem exists_place (tokens : List Token) {pos : Nat} (scopes : List Scope)
    (place : pos ≤ (withEof tokens).findIdx (·.kind == .eof)) :
    ∃ (passed ahead : List Token) (z : Ending),
      ⟨withEof tokens, pos, scopes⟩ = z.cursor passed ahead scopes ∧ passed.length = pos ∧
      Clear passed ∧ Clear ahead ∧ ahead.length ≤ tokens.length ∧
      TokenStream.ofTokens ((withEof tokens).drop pos) = ⟨ahead, z.last.position⟩ := by
  obtain ⟨front, z, same, clear, length⟩ := exists_ending_withEof tokens
  rw [same, findIdx_eof clear] at place
  have taken : (front.take pos).length = pos := List.length_take_of_le place
  have behind : Clear (front.drop pos) := fun t ht => clear t (List.mem_of_mem_drop ht)
  refine ⟨front.take pos, front.drop pos, z, ?_, taken,
    fun t ht => clear t (List.mem_of_mem_take ht), behind, ?_, ?_⟩
  · rw [Ending.cursor, List.take_append_drop, taken, same]
  · rw [List.length_drop]
    omega
  · rw [same, List.drop_append_of_le_length place, ofTokens_ending behind]

/-- A list is completed only if its last token is no end of input. -/
theorem withEof_cases (tokens : List Token) :
    withEof tokens = tokens ∧ tokens.getLast?.map (·.kind) = some .eof ∨
      (∃ p, withEof tokens = tokens ++ [.eof p]) ∧
        tokens.getLast?.map (·.kind) ≠ some .eof := by
  unfold withEof
  split
  · next eof => exact .inl ⟨rfl, by simpa using eof⟩
  · next other => exact .inr ⟨⟨_, rfl⟩, by simpa using other⟩

/-- A cursor in front of the first end of input. -/
theorem Ending.cursor_within {passed ahead : List Token} (z : Ending) (scopes : List Scope)
    (clear : Clear (passed ++ ahead)) :
    (z.cursor passed ahead scopes).pos ≤
        (z.cursor passed ahead scopes).tokens.findIdx (·.kind == .eof) ∧
      (z.cursor passed ahead scopes).tokens.findIdx (·.kind == .eof) <
        (z.cursor passed ahead scopes).tokens.length := by
  rw [Ending.cursor, findIdx_eof clear]
  simp

/-- **The parser is safe on arbitrary tokens.**  From both starting points, at any place up to the
first end of input and in any scopes, and with fuel that the number of tokens determines, it ends
with a tree or with a fault: it never asks for a token that is not there, nor does its fuel run out.
The tokens are those that were given, with an end of input after them if the last one was none.  The
scopes are those that were in force.  The cursor has moved forward, by a token at least where there
is a tree, and not beyond the first end of input, which is in the list.  Where no variable is bound,
the outcome is that of the parser on the tokens from the place on. -/
theorem Entry.walk_safe (entry : Entry) (tokens : List Token) {pos : Nat} (scopes : List Scope)
    (place : pos ≤ (withEof tokens).findIdx (·.kind == .eof)) (more : Nat) :
    ∃ result c,
      (entry.walk (TokenStream.fuelFor tokens.length + more)).run ⟨withEof tokens, pos, scopes⟩ =
        (result, c) ∧
      ((∃ tree, result = .ok tree ∧ pos < c.pos) ∨ ∃ error, result = .error (.failed error)) ∧
      (c.tokens = tokens ∧ tokens.getLast?.map (·.kind) = some .eof ∨
        (∃ p, c.tokens = tokens ++ [.eof p]) ∧ tokens.getLast?.map (·.kind) ≠ some .eof) ∧
      c.scopes = scopes ∧ pos ≤ c.pos ∧ c.pos ≤ c.tokens.findIdx (·.kind == .eof) ∧
      c.tokens.findIdx (·.kind == .eof) < c.tokens.length ∧
      (scopes.flatten = [] → result =
        ((entry.parse (.ofTokens ((withEof tokens).drop pos))).map (·.1)).mapError .failed) := by
  obtain ⟨passed, ahead, z, here, rfl, before, clear, length, stream⟩ :=
    exists_place tokens scopes place
  have enough : TokenStream.fuelFor ahead.length ≤ TokenStream.fuelFor tokens.length + more := by
    simp only [TokenStream.fuelFor]
    omega
  obtain ⟨outcome, follows, same⟩ := entry.exists_follows z passed scopes clear enough
  have list : withEof tokens = passed ++ ahead ++ z.last :: z.behind := congrArg Cursor.tokens here
  rw [here, stream]
  generalize (entry.walk _).run (z.cursor passed ahead scopes) = run at follows
  -- wherever some of the tokens ahead were stepped over, the list is the one that was given
  have whole {moved left : List Token} (split : ahead = moved ++ left) :
      (z.cursor (passed ++ moved) left scopes).tokens = withEof tokens ∧
        Clear (passed ++ moved ++ left) := by
    rw [list, Ending.cursor, split, ← List.append_assoc passed moved left]
    refine ⟨rfl, fun t ht => ?_⟩
    rw [List.append_assoc, ← split] at ht
    exact (List.mem_append.mp ht).elim (before t) (clear t)
  cases follows with
  | found tree split took keeps =>
    subst keeps
    obtain ⟨tokens_eq, visible⟩ := whole split
    obtain ⟨within, listed⟩ := z.cursor_within scopes visible
    refine ⟨_, _, rfl, .inl ⟨tree, rfl, ?_⟩, tokens_eq ▸ withEof_cases tokens, rfl, ?_, within,
      listed, fun unbound => ?_⟩
    · simpa [Ending.cursor] using List.length_pos_iff.mpr (took trivial)
    · simp [Ending.cursor]
    · rw [← same unbound]
      rfl
  | failed error split keeps =>
    subst keeps
    obtain ⟨tokens_eq, visible⟩ := whole split
    obtain ⟨within, listed⟩ := z.cursor_within scopes visible
    refine ⟨_, _, rfl, .inr ⟨error, rfl⟩, tokens_eq ▸ withEof_cases tokens, rfl, ?_, within,
      listed, fun unbound => ?_⟩
    · simp [Ending.cursor]
    · rw [← same unbound]
      rfl

/-- A name, and a block that an end of input cuts off before its result. -/
def cutOff : List Token :=
  [⟨.identifier, "a", ⟨1, 1, 0⟩⟩, ⟨.varWord, "VAR", ⟨1, 3, 2⟩⟩, ⟨.identifier, "x", ⟨1, 7, 6⟩⟩,
    ⟨.eq, "=", ⟨1, 9, 8⟩⟩, ⟨.integer, "1", ⟨1, 11, 10⟩⟩, .eof ⟨1, 12, 11⟩,
    ⟨.returnWord, "RETURN", ⟨1, 13, 12⟩⟩, ⟨.identifier, "x", ⟨1, 20, 19⟩⟩]

/-- The block after the name is left without a result, at the end of input or before it. -/
theorem Entry.walk_safe_cutOff : 1 ≤ (withEof cutOff).findIdx (·.kind == .eof) ∧
    ∃ c, (Entry.expression.walk (TokenStream.fuelFor 8)).run ⟨withEof cutOff, 1, [[]]⟩ =
        (.error (.failed ⟨.returnWord, ⟨1, 12, 11⟩⟩), c) ∧
      c.scopes = [[]] ∧ 1 ≤ c.pos ∧ c.pos ≤ c.tokens.findIdx (·.kind == .eof) := by
  have place : 1 ≤ (withEof cutOff).findIdx (·.kind == .eof) := by decide
  obtain ⟨result, c, run, -, -, scopes, forward, within, -, same⟩ :=
    Entry.walk_safe .expression cutOff [[]] place 0
  have parsed : Entry.expression.parse (.ofTokens ((withEof cutOff).drop 1)) =
      .error ⟨.returnWord, ⟨1, 12, 11⟩⟩ := by rfl
  rw [same rfl, parsed] at run
  exact ⟨place, c, run, scopes, forward, within⟩

end MeasureSql.Dax
