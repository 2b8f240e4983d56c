import MeasureSql.Dax.Cursor

/-!
# A cursor in front of an end of input

A cursor in front of the first end of input sees the tokens that the parser is given, and then that
end of input.  So it can always look at the next token, takes a token where one is ahead, and a
fault that it finds is the one that the parser finds.  A rule with a cursor follows the parser when
it ends with the same tree or the same error behind some of the tokens.

## Main definitions

* `Ending.cursor` — a cursor in front of an end of input.
* `Walk.Follows` — how a rule ends, and that the parser ends so.

## Main results

* `Walk.advance_cursor` — a token is taken where one is ahead.
* `Walk.Follows.bind` — one rule after another.
* `Walk.reference_follows` — the rule for references.
-/

namespace MeasureSql.Dax

/-- No end of input is among the tokens. -/
def Clear (ts : List Token) : Prop :=
  ∀ t ∈ ts, t.kind ≠ .eof

theorem Clear.head {t : Token} {ts : List Token} (h : Clear (t :: ts)) : t.kind ≠ .eof :=
  h t List.mem_cons_self

theorem Clear.tail {t : Token} {ts : List Token} (h : Clear (t :: ts)) : Clear ts :=
  fun u hu => h u (List.mem_cons_of_mem t hu)

theorem Clear.right {xs ys : List Token} (h : Clear (xs ++ ys)) : Clear ys :=
  fun u hu => h u (List.mem_append_right xs hu)

/-- An end of input, with whatever stands after it. -/
structure Ending where
  last : Token
  behind : List Token
  eof : last.kind = .eof

/-- A cursor behind some tokens and in front of others, which the end of input follows. -/
def Ending.cursor (z : Ending) (passed ahead : List Token) (scopes : List Scope) : Cursor :=
  ⟨passed ++ ahead ++ z.last :: z.behind, passed.length, scopes⟩

/-- The token at the index of what was passed. -/
theorem getElem?_passed (passed ahead : List Token) :
    (passed ++ ahead)[passed.length]? = ahead.head? := by
  rw [List.getElem?_append_right (Nat.le_refl _), Nat.sub_self, List.head?_eq_getElem?]

theorem nextIs_cons (kind : TokenKind) (t : Token) (ts : List Token) :
    nextIs kind (t :: ts) = (t.kind == kind) := rfl

namespace Walk

section Monad

variable {α β : Type} {walk : Walk α} {next : α → Walk β} {c c' : Cursor}

theorem run_bind_of_ok {a : α} (h : walk.run c = (.ok a, c')) :
    (walk >>= next).run c = (next a).run c' := by
  simp only [bind, h]

theorem run_bind_of_error {why : Halt} (h : walk.run c = (.error why, c')) :
    (walk >>= next).run c = (.error why, c') := by
  simp only [bind, h]

theorem run_pure (a : α) (c : Cursor) : (pure a : Walk α).run c = (.ok a, c) := rfl

theorem run_look (c : Cursor) : look.run c = (.ok c, c) := rfl

end Monad

/-! ## One step at a time -/

section Steps

variable (z : Ending) {passed ahead : List Token} {scopes : List Scope} {t : Token}

theorem tokenAt_of_getElem? {c : Cursor} {i : Nat} (h : c.tokens[i]? = some t) :
    (tokenAt i).run c = (.ok t, c) := by
  rw [tokenAt, run_bind_of_ok (run_look c), h, run_pure]

/-- The next token is the first one ahead, or the end of input. -/
theorem peek_cursor : peek.run (z.cursor passed ahead scopes) =
    (.ok (ahead.headD z.last), z.cursor passed ahead scopes) := by
  have index : min passed.length ((z.cursor passed ahead scopes).tokens.length - 1) =
      passed.length := by
    simp only [Ending.cursor, List.length_append, List.length_cons]
    omega
  rw [peek, run_bind_of_ok (run_look _)]
  refine tokenAt_of_getElem? ?_
  change (z.cursor passed ahead scopes).tokens[min passed.length _]? = _
  rw [index, Ending.cursor, List.append_assoc, getElem?_passed]
  cases ahead <;> rfl

theorem peekNextKind_cursor : peekNextKind.run (z.cursor passed (t :: ahead) scopes) =
    (.ok (some (ahead.headD z.last).kind), z.cursor passed (t :: ahead) scopes) := by
  have found : (z.cursor passed (t :: ahead) scopes).tokens[passed.length + 1]? =
      some (ahead.headD z.last) := by
    have same : passed ++ t :: ahead ++ z.last :: z.behind =
        (passed ++ [t]) ++ (ahead ++ z.last :: z.behind) := by simp
    have length : passed.length + 1 = (passed ++ [t]).length := by simp
    rw [Ending.cursor, same, length, getElem?_passed]
    cases ahead <;> rfl
  rw [peekNextKind, run_bind_of_ok (run_look _), run_pure]
  change (Except.ok ((z.cursor passed (t :: ahead) scopes).tokens[passed.length + 1]?.map _), _) = _
  rw [found]
  rfl

theorem step_cursor : step.run (z.cursor passed (t :: ahead) scopes) =
    (.ok (), z.cursor (passed ++ [t]) ahead scopes) := by
  simp [step, Ending.cursor]

/-- The cursor is at the end when no tokens are ahead. -/
theorem atEnd_cursor (clear : Clear ahead) : atEnd.run (z.cursor passed ahead scopes) =
    (.ok ahead.isEmpty, z.cursor passed ahead scopes) := by
  rw [atEnd, run_bind_of_ok (peek_cursor z), run_pure]
  cases ahead with
  | nil => simp [z.eof]
  | cons t ahead => simp [clear.head]

/-- **A token that is ahead is stepped over**, and taken: something was passed then. -/
theorem advance_cursor (clear : Clear (t :: ahead)) :
    advance.run (z.cursor passed (t :: ahead) scopes) =
      (.ok t, z.cursor (passed ++ [t]) ahead scopes) := by
  rw [advance, run_bind_of_ok (atEnd_cursor z clear)]
  simp only [List.isEmpty_cons, Bool.false_eq_true, if_false]
  rw [run_bind_of_ok (step_cursor z), run_bind_of_ok (run_look _)]
  have front : (z.cursor (passed ++ [t]) ahead scopes).pos ≠ 0 := by simp [Ending.cursor]
  have found : (z.cursor (passed ++ [t]) ahead scopes).tokens[
      (z.cursor (passed ++ [t]) ahead scopes).pos - 1]? = some t := by
    simp [Ending.cursor]
  rw [if_neg front]
  exact tokenAt_of_getElem? found

theorem check_cursor (clear : Clear ahead) (kind : TokenKind) :
    (check kind).run (z.cursor passed ahead scopes) =
      (.ok (nextIs kind ahead), z.cursor passed ahead scopes) := by
  rw [check, run_bind_of_ok (atEnd_cursor z clear), run_bind_of_ok (peek_cursor z), run_pure]
  cases ahead <;> rfl

theorem eat_of_nextIs {kind : TokenKind} (clear : Clear (t :: ahead))
    (same : nextIs kind (t :: ahead) = true) :
    (eat kind).run (z.cursor passed (t :: ahead) scopes) =
      (.ok true, z.cursor (passed ++ [t]) ahead scopes) := by
  rw [eat, run_bind_of_ok (check_cursor z clear kind), same, if_pos rfl,
    run_bind_of_ok (advance_cursor z clear)]
  rfl

theorem eat_of_not_nextIs {kind : TokenKind} (clear : Clear ahead)
    (other : nextIs kind ahead = false) : (eat kind).run (z.cursor passed ahead scopes) =
      (.ok false, z.cursor passed ahead scopes) := by
  rw [eat, run_bind_of_ok (check_cursor z clear kind), other]
  rfl

theorem isWordCall_cursor : isWordCall.run (z.cursor passed (t :: ahead) scopes) =
    (.ok (Dax.isWordCall (t :: ahead)), z.cursor passed (t :: ahead) scopes) := by
  rw [isWordCall, run_bind_of_ok (peek_cursor z), run_bind_of_ok (peekNextKind_cursor z), run_pure]
  cases ahead with
  | nil => simp [Dax.isWordCall, z.eof]
  | cons u ahead => simp [Dax.isWordCall]

theorem isNotSign_cursor_nil : isNotSign.run (z.cursor passed [] scopes) =
    (.ok false, z.cursor passed [] scopes) := by
  rw [isNotSign, run_bind_of_ok (check_cursor z (by simp [Clear]) .not)]
  rfl

theorem isNotSign_cursor (clear : Clear (t :: ahead)) :
    isNotSign.run (z.cursor passed (t :: ahead) scopes) =
      (.ok (t.kind == .not && !Dax.isWordCall (t :: ahead)),
        z.cursor passed (t :: ahead) scopes) := by
  rw [isNotSign, run_bind_of_ok (check_cursor z clear .not), nextIs]
  cases t.kind == .not with
  | true => rw [if_pos rfl, run_bind_of_ok (isWordCall_cursor z)]; rfl
  | false => rfl

/-- A fault is found at the next token. -/
theorem fault_cursor {α : Type} (what : ParseFault) :
    (fault (α := α) what).run (z.cursor passed ahead scopes) =
      (.error (.failed (faultAt z.last.position ahead what)), z.cursor passed ahead scopes) := by
  rw [fault, run_bind_of_ok (peek_cursor z)]
  cases ahead <;> rfl

/-- The blocks are searched from the inside, as one scope is. -/
theorem find?_flatten (scopes : List Scope) (name : String) :
    scopes.findSome? (·.find? name) = Scope.find? scopes.flatten name := by
  induction scopes with
  | nil => rfl
  | cons scope scopes ih =>
    rw [List.findSome?_cons, List.flatten_cons]
    simp only [Scope.find?] at ih ⊢
    rw [List.lookup_append, ← ih]
    cases scope.lookup (Text.asciiUpper name) <;> rfl

theorem find?_cursor (name : String) : (find? name).run (z.cursor passed ahead scopes) =
    (.ok (Scope.find? scopes.flatten name), z.cursor passed ahead scopes) := by
  rw [← find?_flatten]
  rfl

theorem define_cursor (name : String) (value : Expr) (scope : Scope) :
    (define name value).run (z.cursor passed ahead (scope :: scopes)) =
      (.ok (), z.cursor passed ahead (scope.bind name value :: scopes)) := rfl

end Steps

/-! ## What follows -/

/-- A rule with a cursor ends as the parser does: behind some of the tokens that were ahead, with
the tree and the others left, or with the error.  Nothing else ends it.  A rule that `takes` does
not succeed without a token, and the scopes are `kept` either way. -/
inductive Follows {α : Type} (z : Ending) (passed ahead : List Token) (takes : Prop)
    (kept : List Scope → Prop) :
    Except Halt α × Cursor → Except ParseError (α × List Token) → Prop
  | found (a : α) {moved left : List Token} {scopes : List Scope} (split : ahead = moved ++ left)
      (took : takes → moved ≠ []) (keeps : kept scopes) :
      Follows z passed ahead takes kept (.ok a, z.cursor (passed ++ moved) left scopes)
        (.ok (a, left))
  | failed (error : ParseError) {moved left : List Token} {scopes : List Scope}
      (split : ahead = moved ++ left) (keeps : kept scopes) :
      Follows z passed ahead takes kept
        (.error (.failed error), z.cursor (passed ++ moved) left scopes) (.error error)

namespace Follows

variable {α β : Type} {z : Ending} {passed ahead : List Token} {scopes : List Scope}
  {takes : Prop} {kept kept' : List Scope → Prop} {run : Except Halt α × Cursor}
  {result : Except ParseError (α × List Token)}

/-- A rule that takes no token. -/
theorem stay (a : α) (keeps : kept scopes) :
    Follows z passed ahead False kept (.ok a, z.cursor passed ahead scopes) (.ok (a, ahead)) := by
  have here : Follows z passed ahead False kept (.ok a, z.cursor (passed ++ []) ahead scopes)
      (.ok (a, ahead)) := .found a rfl False.elim keeps
  rwa [List.append_nil] at here

/-- A rule that fails where it starts. -/
theorem fail (error : ParseError) (keeps : kept scopes) :
    Follows (α := α) z passed ahead takes kept
      (.error (.failed error), z.cursor passed ahead scopes) (.error error) := by
  have here : Follows (α := α) z passed ahead takes kept
      (.error (.failed error), z.cursor (passed ++ []) ahead scopes) (.error error) :=
    .failed error rfl keeps
  rwa [List.append_nil] at here

theorem fault (what : ParseFault) (keeps : kept scopes) :
    Follows (α := α) z passed ahead takes kept
      ((Walk.fault what).run (z.cursor passed ahead scopes))
      (.error (faultAt z.last.position ahead what)) := by
  rw [fault_cursor]
  exact .fail _ keeps

theorem weaken (h : Follows z passed ahead takes kept run result)
    (keeps : ∀ scopes, kept scopes → kept' scopes) :
    Follows z passed ahead takes kept' run result := by
  cases h with
  | found a split took same => exact .found a split took (keeps _ same)
  | failed error split same => exact .failed error split (keeps _ same)

/-- Any rule may be one that takes no token. -/
theorem any (h : Follows z passed ahead takes kept run result) :
    Follows z passed ahead False kept run result := by
  cases h with
  | found a split _ keeps => exact .found a split False.elim keeps
  | failed error split keeps => exact .failed error split keeps

/-- What a rule takes behind some tokens is taken behind fewer of them. -/
theorem moved {front : List Token} (h : Follows z (passed ++ front) ahead False kept run result)
    (took : takes → front ≠ []) : Follows z passed (front ++ ahead) takes kept run result := by
  cases h with
  | found a split _ keeps =>
    rw [List.append_assoc]
    exact .found a (by rw [split, List.append_assoc])
      (fun h => List.append_ne_nil_of_left_ne_nil (took h) _) keeps
  | failed error split keeps =>
    rw [List.append_assoc]
    exact .failed error (by rw [split, List.append_assoc]) keeps

theorem step {t : Token} (h : Follows z (passed ++ [t]) ahead False kept run result) :
    Follows z passed (t :: ahead) takes kept run result :=
  h.moved fun _ => List.cons_ne_nil t []

/-- One rule after another: it takes a token if the first one does. -/
theorem bind {walk : Walk α} {next : α → Walk β} {c : Cursor}
    {m : Except ParseError (α × List Token)}
    {f : α × List Token → Except ParseError (β × List Token)}
    (h : Follows z passed ahead takes (scopes = ·) (walk.run c) m) (keeps : kept scopes)
    (later : ∀ a moved left, ahead = moved ++ left → Follows z (passed ++ moved) left False kept
      ((next a).run (z.cursor (passed ++ moved) left scopes)) (f (a, left))) :
    Follows z passed ahead takes kept ((walk >>= next).run c) (m >>= f) := by
  generalize run : walk.run c = r at h
  cases h with
  | found a split took same =>
    subst same
    rw [run_bind_of_ok run, split]
    exact (later a _ _ split).moved took
  | failed error split same =>
    subst same
    rw [run_bind_of_error run]
    exact .failed error split keeps

/-- A block is left as it was entered, and with it the ones around it. -/
theorem inBlock {walk : Walk α} (h : Follows z passed ahead takes (∃ scope, · = scope :: scopes)
      (walk.run (z.cursor passed ahead ([] :: scopes))) result) :
    Follows z passed ahead takes (scopes = ·)
      ((Walk.inBlock walk).run (z.cursor passed ahead scopes)) result := by
  unfold Walk.inBlock
  generalize run : walk.run (z.cursor passed ahead ([] :: scopes)) = r at h
  have entered : walk.run { z.cursor passed ahead scopes with
      scopes := [] :: (z.cursor passed ahead scopes).scopes } = r := run
  simp only [entered]
  cases h with
  | found a split took keeps =>
    obtain ⟨scope, rfl⟩ := keeps
    exact .found a split took rfl
  | failed error split keeps =>
    obtain ⟨scope, rfl⟩ := keeps
    exact .failed error split rfl

end Follows

/-! ## Rules without recursion -/

section Leaves

variable {z : Ending} {passed ahead : List Token} {scopes : List Scope} {t : Token}

/-- Empty parentheses are passed over if they stand next. -/
theorem eatEmptyParens_cursor (z : Ending) (passed : List Token) (scopes : List Scope)
    (clear : Clear ahead) :
    ∃ moved, ahead = moved ++ skipEmptyParens ahead ∧
      eatEmptyParens.run (z.cursor passed ahead scopes) =
        (.ok (), z.cursor (passed ++ moved) (skipEmptyParens ahead) scopes) := by
  have opened : (check .lParen).run (z.cursor passed ahead scopes) =
      (.ok (nextIs .lParen ahead), z.cursor passed ahead scopes) := check_cursor z clear .lParen
  obtain _ | ⟨t, ahead⟩ := ahead
  · refine ⟨[], rfl, ?_⟩
    rw [eatEmptyParens, run_bind_of_ok opened]
    simp [peekNextKind, nextIs, look, bind, pure, skipEmptyParens]
  rw [eatEmptyParens, run_bind_of_ok opened, run_bind_of_ok (peekNextKind_cursor z)]
  obtain _ | ⟨u, ahead⟩ := ahead
  · refine ⟨[], rfl, ?_⟩
    simp [nextIs, z.eof, skipEmptyParens, run_pure]
  · have next : (some (List.headD (u :: ahead) z.last).kind == some TokenKind.rParen) =
        (u.kind == .rParen) := by simp
    rw [next, nextIs, skipEmptyParens]
    split
    · refine ⟨[t, u], rfl, ?_⟩
      rw [run_bind_of_ok (advance_cursor z clear), run_bind_of_ok (advance_cursor z clear.tail),
        run_pure]
      simp
    · exact ⟨[], rfl, by rw [run_pure, List.append_nil]⟩

theorem constant_follows (clear : Clear (t :: ahead)) (value : Expr) :
    Follows z passed (t :: ahead) True (scopes = ·)
      ((constant value).run (z.cursor passed (t :: ahead) scopes))
      (.ok (value, skipEmptyParens ahead)) := by
  obtain ⟨moved, split, skipped⟩ :=
    eatEmptyParens_cursor z (passed ++ [t]) scopes clear.tail
  rw [constant, run_bind_of_ok (advance_cursor z clear), run_bind_of_ok skipped, run_pure]
  exact Follows.step (.found value split False.elim rfl)

theorem number_follows (clear : Clear (t :: ahead)) (read? : String → Option Literal) :
    Follows z passed (t :: ahead) True (scopes = ·)
      ((number read?).run (z.cursor passed (t :: ahead) scopes))
      (match read? t.lexeme with
        | some value => .ok (.literal value, ahead)
        | none => .error ⟨.invalidNumber t.lexeme, t.position⟩) := by
  rw [number, run_bind_of_ok (advance_cursor z clear)]
  cases read? t.lexeme with
  | some value => exact Follows.step (.stay _ rfl)
  | none => exact Follows.step (.fail _ rfl)

/-- A name that is not qualified is taken alone. -/
theorem parseReference_of_bare (scope : Scope) (bare : nextIs .columnRef ahead = false) :
    parseReference scope t ahead =
      (if t.kind == .identifier && !nextIs .lParen ahead then
        match scope.find? t.nameValue with
        | some value => .variable t.nameValue (some value)
        | none => .table t.nameValue
      else .table t.nameValue, ahead) := by
  obtain _ | ⟨u, ahead⟩ := ahead
  · rw [parseReference]
    cases t.kind == .identifier with
    | true => cases scope.find? t.nameValue <;> rfl
    | false => rfl
  · have column : (u.kind == .columnRef) = false := bare
    rw [parseReference, column, nextIs, bne]
    cases t.kind == .identifier && !(u.kind == .lParen) with
    | true => cases scope.find? t.nameValue <;> rfl
    | false => rfl

theorem reference_follows (clear : Clear (t :: ahead)) :
    Follows z passed (t :: ahead) True (scopes = ·)
      (reference.run (z.cursor passed (t :: ahead) scopes))
      (.ok (parseReference scopes.flatten t ahead)) := by
  rw [reference, run_bind_of_ok (advance_cursor z clear),
    run_bind_of_ok (check_cursor z clear.tail .columnRef)]
  cases qualified : nextIs .columnRef ahead with
  | true =>
    obtain _ | ⟨u, ahead⟩ := ahead
    · cases qualified
    have column : (u.kind == .columnRef) = true := qualified
    rw [if_pos rfl, run_bind_of_ok (advance_cursor z clear.tail), run_pure, parseReference,
      if_pos column]
    exact Follows.step (Follows.step (.stay _ rfl))
  | false =>
    rw [if_neg Bool.false_ne_true, run_bind_of_ok (check_cursor z clear.tail .lParen),
      parseReference_of_bare _ qualified]
    refine Follows.step ?_
    split
    · rw [run_bind_of_ok (find?_cursor z _)]
      cases Scope.find? scopes.flatten t.nameValue <;> exact .stay _ rfl
    · exact .stay _ rfl

/-- A spelled-out operator is the name of a function in front of a parenthesis, and a fault
elsewhere. -/
theorem follows_word (clear : Clear (t :: ahead)) :
    Follows z passed (t :: ahead) True (scopes = ·)
      ((do
        let called ← isWordCall
        if called then do
          let t ← advance
          pure (.table t.lexeme)
        else fault (.unexpectedToken t.lexeme) : Walk Expr).run
          (z.cursor passed (t :: ahead) scopes))
      (if Dax.isWordCall (t :: ahead) then .ok (.table t.lexeme, ahead)
        else .error (faultAt z.last.position (t :: ahead) (.unexpectedToken t.lexeme))) := by
  rw [run_bind_of_ok (isWordCall_cursor z)]
  cases Dax.isWordCall (t :: ahead) with
  | true =>
    rw [if_pos rfl, if_pos rfl, run_bind_of_ok (advance_cursor z clear)]
    exact Follows.step (.stay _ rfl)
  | false => exact .fault _ rfl

end Leaves

end Walk

end MeasureSql.Dax
