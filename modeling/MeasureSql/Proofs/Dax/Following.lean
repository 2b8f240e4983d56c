import MeasureSql.Proofs.Dax.Cursor

/-!
# The rules with a cursor are the parser

Every rule with a cursor calls the same rules as the parser, one after another, so all of them
follow the parser by induction on the fuel.  Ten rules at most are passed between two tokens: that
much fuel for each token ahead is enough on both sides.

## Main definitions

* `Walk.Room` — fuel enough for the tokens that are ahead.
* `Walk.Following` — all rules follow the parser.

## Main results

* `Walk.following` — all rules follow the parser where there is fuel enough.
* `Entry.exists_follows` — from both starting points the parser is followed.
-/

namespace MeasureSql.Dax

namespace Walk

/-- Fuel enough on both sides for the tokens that are ahead: ten rules at most are passed between
two tokens. -/
def Room (rules : Nat) (ahead : List Token) (fuel fuel' : Nat) : Prop :=
  10 * ahead.length + rules ≤ fuel ∧ 10 * ahead.length + rules ≤ fuel'

section Room

variable {rules rules' fuel fuel' : Nat} {t : Token} {ahead moved left : List Token}

/-- A rule below takes no token for granted. -/
theorem Room.pass (h : Room rules ahead (fuel + 1) (fuel' + 1)) (less : rules' < rules) :
    Room rules' ahead fuel fuel' := by
  obtain ⟨room, room'⟩ := h
  constructor <;> omega

/-- Behind a token any rule can stand. -/
theorem Room.step (h : Room rules (t :: ahead) (fuel + 1) (fuel' + 1))
    (less : rules' < rules + 10) : Room rules' ahead fuel fuel' := by
  obtain ⟨room, room'⟩ := h
  rw [List.length_cons] at room room'
  constructor <;> omega

theorem Room.right (h : Room rules (moved ++ left) fuel fuel') : Room rules left fuel fuel' := by
  obtain ⟨room, room'⟩ := h
  rw [List.length_append] at room room'
  constructor <;> omega

theorem Room.tail (h : Room rules (t :: ahead) fuel fuel') : Room rules ahead fuel fuel' :=
  Room.right (show Room rules ([t] ++ ahead) fuel fuel' from h)

theorem Room.exists_succ (h : Room (rules + 1) ahead fuel fuel') : ∃ n, fuel' = n + 1 := by
  obtain ⟨-, room'⟩ := h
  exact ⟨fuel' - 1, by omega⟩

end Room

/-- All rules follow the parser where there is fuel enough. -/
structure Following (z : Ending) (fuel : Nat) : Prop where
  expression {passed ahead : List Token} (scopes : List Scope) {fuel' : Nat} (clear : Clear ahead)
    (room : Room 6 ahead fuel fuel') :
    Follows z passed ahead True (scopes = ·) ((expression fuel).run (z.cursor passed ahead scopes))
      (parseExpr z.last.position fuel' scopes.flatten ahead)
  bindings {passed ahead : List Token} (scope : Scope) (scopes : List Scope) {fuel' : Nat}
    (clear : Clear ahead) (room : Room 1 ahead fuel fuel') :
    Follows z passed ahead True (∃ scope, · = scope :: scopes)
      ((bindings fuel).run (z.cursor passed ahead (scope :: scopes)))
      (parseVariables z.last.position fuel' (scope :: scopes).flatten ahead)
  binary {passed ahead : List Token} (scopes : List Scope) (least : Nat) {fuel' : Nat}
    (clear : Clear ahead) (room : Room 5 ahead fuel fuel') :
    Follows z passed ahead True (scopes = ·)
      ((binary fuel least).run (z.cursor passed ahead scopes))
      (parseBinary z.last.position fuel' scopes.flatten least ahead)
  operators {passed ahead : List Token} (scopes : List Scope) (least : Nat) (left : Expr)
    {fuel' : Nat} (clear : Clear ahead) (room : Room 1 ahead fuel fuel') :
    Follows z passed ahead False (scopes = ·)
      ((operators fuel least left).run (z.cursor passed ahead scopes))
      (parseOperators z.last.position fuel' scopes.flatten least left ahead)
  unary {passed ahead : List Token} (scopes : List Scope) {fuel' : Nat} (clear : Clear ahead)
    (room : Room 4 ahead fuel fuel') :
    Follows z passed ahead True (scopes = ·) ((unary fuel).run (z.cursor passed ahead scopes))
      (parseUnary z.last.position fuel' scopes.flatten ahead)
  power {passed ahead : List Token} (scopes : List Scope) {fuel' : Nat} (clear : Clear ahead)
    (room : Room 3 ahead fuel fuel') :
    Follows z passed ahead True (scopes = ·) ((power fuel).run (z.cursor passed ahead scopes))
      (parsePower z.last.position fuel' scopes.flatten ahead)
  call {passed ahead : List Token} (scopes : List Scope) {fuel' : Nat} (clear : Clear ahead)
    (room : Room 2 ahead fuel fuel') :
    Follows z passed ahead True (scopes = ·) ((call fuel).run (z.cursor passed ahead scopes))
      (parseCall z.last.position fuel' scopes.flatten ahead)
  arguments {passed ahead : List Token} (scopes : List Scope) {fuel' : Nat} (clear : Clear ahead)
    (room : Room 7 ahead fuel fuel') :
    Follows z passed ahead False (scopes = ·) ((arguments fuel).run (z.cursor passed ahead scopes))
      (parseArguments z.last.position fuel' scopes.flatten ahead)
  moreArguments {passed ahead : List Token} (scopes : List Scope) {fuel' : Nat}
    (clear : Clear ahead) (room : Room 1 ahead fuel fuel') :
    Follows z passed ahead False (scopes = ·)
      ((moreArguments fuel).run (z.cursor passed ahead scopes))
      (parseMoreArguments z.last.position fuel' scopes.flatten ahead)
  primary {passed ahead : List Token} (scopes : List Scope) {fuel' : Nat} (clear : Clear ahead)
    (room : Room 1 ahead fuel fuel') :
    Follows z passed ahead True (scopes = ·) ((primary fuel).run (z.cursor passed ahead scopes))
      (parsePrimary z.last.position fuel' scopes.flatten ahead)

section Rules

variable {z : Ending} {fuel fuel' : Nat} {passed ahead : List Token} {scopes : List Scope}

theorem follows_expression (ih : Following z fuel) (clear : Clear ahead)
    (room : Room 6 ahead (fuel + 1) fuel') :
    Follows z passed ahead True (scopes = ·)
      ((expression (fuel + 1)).run (z.cursor passed ahead scopes))
      (parseExpr z.last.position fuel' scopes.flatten ahead) := by
  obtain ⟨fuel', rfl⟩ := room.exists_succ
  rw [expression, parseExpr, run_bind_of_ok (check_cursor z clear .varWord)]
  split
  · exact (ih.bindings [] scopes clear (room.pass (by decide))).inBlock
  · exact ih.binary scopes 0 clear (room.pass (by decide))

theorem follows_bindings (ih : Following z fuel) {scope : Scope} (clear : Clear ahead)
    (room : Room 1 ahead (fuel + 1) fuel') :
    Follows z passed ahead True (∃ scope, · = scope :: scopes)
      ((bindings (fuel + 1)).run (z.cursor passed ahead (scope :: scopes)))
      (parseVariables z.last.position fuel' (scope :: scopes).flatten ahead) := by
  obtain ⟨fuel', rfl⟩ := room.exists_succ
  unfold parseVariables
  rw [bindings]
  obtain _ | ⟨t, ahead⟩ := ahead
  · rw [run_bind_of_ok (eat_of_not_nextIs z clear rfl), if_neg Bool.false_ne_true,
      run_bind_of_ok (eat_of_not_nextIs z clear rfl)]
    exact .fault _ ⟨scope, rfl⟩
  dsimp only
  cases block : t.kind == .varWord with
  | false =>
    rw [run_bind_of_ok (eat_of_not_nextIs z clear block), if_neg Bool.false_ne_true,
      if_neg Bool.false_ne_true]
    cases result : t.kind == .returnWord with
    | false =>
      rw [run_bind_of_ok (eat_of_not_nextIs z clear result)]
      exact .fault _ ⟨scope, rfl⟩
    | true =>
      rw [run_bind_of_ok (eat_of_nextIs z clear result), if_pos rfl, if_pos rfl]
      refine Follows.step ?_
      exact ((ih.expression (scope :: scopes) clear.tail (room.step (by decide))).weaken
        fun _ same => ⟨scope, same.symm⟩).any
  | true =>
    rw [run_bind_of_ok (eat_of_nextIs z clear block), if_pos rfl, if_pos rfl,
      run_bind_of_ok (check_cursor z clear.tail .identifier)]
    refine Follows.step ?_
    obtain _ | ⟨name, ahead⟩ := ahead
    · exact .fault _ ⟨scope, rfl⟩
    rw [nextIs_cons]
    dsimp only
    cases name.kind == .identifier with
    | false => exact .fault _ ⟨scope, rfl⟩
    | true =>
      rw [if_pos rfl, if_pos rfl, run_bind_of_ok (advance_cursor z clear.tail)]
      refine Follows.step ?_
      obtain _ | ⟨eq, ahead⟩ := ahead
      · rw [run_bind_of_ok (eat_of_not_nextIs z clear.tail.tail rfl)]
        exact .fault _ ⟨scope, rfl⟩
      dsimp only
      cases sign : eq.kind == .eq with
      | false =>
        rw [run_bind_of_ok (eat_of_not_nextIs z clear.tail.tail sign)]
        exact .fault _ ⟨scope, rfl⟩
      | true =>
        rw [run_bind_of_ok (eat_of_nextIs z clear.tail.tail sign), if_pos rfl,
          if_pos rfl]
        refine Follows.step (Follows.bind (ih.binary (scope :: scopes) 0 clear.tail.tail.tail
          (room.step (by decide)).tail.tail).any ⟨scope, rfl⟩ fun value moved rest split => ?_)
        subst split
        rw [run_bind_of_ok (define_cursor z name.lexeme value scope)]
        exact (ih.bindings _ scopes clear.tail.tail.tail.right
          (room.step (by decide)).tail.tail.right).any

theorem follows_binary (ih : Following z fuel) {least : Nat} (clear : Clear ahead)
    (room : Room 5 ahead (fuel + 1) fuel') :
    Follows z passed ahead True (scopes = ·)
      ((binary (fuel + 1) least).run (z.cursor passed ahead scopes))
      (parseBinary z.last.position fuel' scopes.flatten least ahead) := by
  obtain ⟨fuel', rfl⟩ := room.exists_succ
  rw [binary, parseBinary]
  refine (ih.unary scopes clear (room.pass (by decide))).bind rfl fun left moved rest split => ?_
  subst split
  exact ih.operators scopes least left clear.right (room.pass (by decide)).right

theorem follows_operators (ih : Following z fuel) {least : Nat} {left : Expr}
    (clear : Clear ahead) (room : Room 1 ahead (fuel + 1) fuel') :
    Follows z passed ahead False (scopes = ·)
      ((operators (fuel + 1) least left).run (z.cursor passed ahead scopes))
      (parseOperators z.last.position fuel' scopes.flatten least left ahead) := by
  obtain ⟨fuel', rfl⟩ := room.exists_succ
  unfold parseOperators
  rw [operators, run_bind_of_ok (peek_cursor z)]
  obtain _ | ⟨t, ahead⟩ := ahead
  · rw [List.headD_nil, z.eof]
    exact .stay left rfl
  rw [List.headD_cons]
  dsimp only
  cases operator : t.kind.binaryOp? with
  | none => exact .stay left rfl
  | some op =>
    dsimp only
    split
    · exact .stay left rfl
    · rw [run_bind_of_ok (advance_cursor z clear)]
      refine Follows.step (Follows.bind (ih.binary scopes _ clear.tail
        (room.step (by decide))).any rfl fun right moved rest split => ?_)
      subst split
      exact ih.operators scopes least _ clear.tail.right (room.step (by decide)).right

theorem follows_unary (ih : Following z fuel) (clear : Clear ahead)
    (room : Room 4 ahead (fuel + 1) fuel') :
    Follows z passed ahead True (scopes = ·) ((unary (fuel + 1)).run (z.cursor passed ahead scopes))
      (parseUnary z.last.position fuel' scopes.flatten ahead) := by
  obtain ⟨fuel', rfl⟩ := room.exists_succ
  unfold parseUnary
  rw [unary]
  obtain _ | ⟨t, ahead⟩ := ahead
  · rw [run_bind_of_ok (eat_of_not_nextIs z clear rfl), if_neg Bool.false_ne_true,
      run_bind_of_ok (isNotSign_cursor_nil z)]
    exact ih.power scopes clear (room.pass (by decide))
  dsimp only
  cases minus : t.kind == .minus with
  | true =>
    rw [run_bind_of_ok (eat_of_nextIs z clear minus), if_pos rfl, if_pos rfl]
    refine Follows.step ((ih.unary scopes clear.tail (room.step (by decide))).any.bind rfl
      fun operand moved rest split => ?_)
    exact .stay _ rfl
  | false =>
    rw [run_bind_of_ok (eat_of_not_nextIs z clear minus), if_neg Bool.false_ne_true,
      if_neg Bool.false_ne_true, run_bind_of_ok (isNotSign_cursor z clear)]
    cases t.kind == .not && !Dax.isWordCall (t :: ahead) with
    | true =>
      rw [if_pos rfl, if_pos rfl, run_bind_of_ok (advance_cursor z clear)]
      refine Follows.step ((ih.unary scopes clear.tail (room.step (by decide))).any.bind rfl
        fun operand moved rest split => ?_)
      exact .stay _ rfl
    | false => exact ih.power scopes clear (room.pass (by decide))

theorem follows_power (ih : Following z fuel) (clear : Clear ahead)
    (room : Room 3 ahead (fuel + 1) fuel') :
    Follows z passed ahead True (scopes = ·) ((power (fuel + 1)).run (z.cursor passed ahead scopes))
      (parsePower z.last.position fuel' scopes.flatten ahead) := by
  obtain ⟨fuel', rfl⟩ := room.exists_succ
  rw [power, parsePower]
  refine (ih.call scopes clear (room.pass (by decide))).bind rfl fun base moved rest split => ?_
  subst split
  have clear := clear.right
  obtain _ | ⟨t, rest⟩ := rest
  · rw [run_bind_of_ok (eat_of_not_nextIs z clear rfl)]
    exact .stay base rfl
  dsimp only
  cases raised : t.kind == .caret with
  | true =>
    rw [run_bind_of_ok (eat_of_nextIs z clear raised), if_pos rfl, if_pos rfl]
    refine Follows.step ((ih.power scopes clear.tail (room.right.step (by decide))).any.bind rfl
      fun exponent moved' rest split => ?_)
    exact .stay _ rfl
  | false =>
    rw [run_bind_of_ok (eat_of_not_nextIs z clear raised)]
    exact .stay base rfl

/-- A closing mark ends a rule, and another token is a fault. -/
theorem follows_closing {α : Type} {kept : List Scope → Prop} (kind : TokenKind)
    (what : ParseFault) (a : α) (keeps : kept scopes) : Clear ahead →
    Follows z passed ahead False kept
      ((do
        let closed ← eat kind
        if closed then pure a else fault what : Walk α).run (z.cursor passed ahead scopes))
      (match ahead with
        | t :: rest =>
          if t.kind == kind then .ok (a, rest)
          else .error (faultAt z.last.position (t :: rest) what)
        | [] => .error (faultAt z.last.position [] what)) := by
  intro clear
  obtain _ | ⟨t, ahead⟩ := ahead
  · rw [run_bind_of_ok (eat_of_not_nextIs z clear rfl)]
    exact .fault what keeps
  dsimp only
  cases closing : t.kind == kind with
  | true =>
    rw [run_bind_of_ok (eat_of_nextIs z clear closing)]
    exact Follows.step (.stay a keeps)
  | false =>
    rw [run_bind_of_ok (eat_of_not_nextIs z clear closing)]
    exact .fault what keeps

theorem follows_call (ih : Following z fuel) (clear : Clear ahead)
    (room : Room 2 ahead (fuel + 1) fuel') :
    Follows z passed ahead True (scopes = ·) ((call (fuel + 1)).run (z.cursor passed ahead scopes))
      (parseCall z.last.position fuel' scopes.flatten ahead) := by
  obtain ⟨fuel', rfl⟩ := room.exists_succ
  rw [call, parseCall]
  refine (ih.primary scopes clear (room.pass (by decide))).bind rfl fun head moved rest split => ?_
  subst split
  have clear := clear.right
  cases head with
  | table name =>
    dsimp only
    rw [run_bind_of_ok (check_cursor z clear .lParen)]
    obtain _ | ⟨t, rest⟩ := rest
    · exact .stay _ rfl
    rw [nextIs_cons]
    dsimp only
    cases t.kind == .lParen with
    | true =>
      rw [if_pos rfl, if_pos rfl, run_bind_of_ok (advance_cursor z clear)]
      refine Follows.step ((ih.arguments scopes clear.tail
        (room.right.step (by decide))).any.bind rfl
        fun args moved' rest split => ?_)
      subst split
      exact follows_closing .rParen .closingArguments (callExpr name args) rfl clear.tail.right
    | false => exact .stay _ rfl
  | _ => exact .stay _ rfl

theorem follows_arguments (ih : Following z fuel) (clear : Clear ahead)
    (room : Room 7 ahead (fuel + 1) fuel') :
    Follows z passed ahead False (scopes = ·)
      ((arguments (fuel + 1)).run (z.cursor passed ahead scopes))
      (parseArguments z.last.position fuel' scopes.flatten ahead) := by
  obtain ⟨fuel', rfl⟩ := room.exists_succ
  rw [arguments, parseArguments, run_bind_of_ok (check_cursor z clear .rParen)]
  cases nextIs .rParen ahead with
  | true => exact .stay [] rfl
  | false =>
    refine Follows.bind (ih.expression scopes clear (room.pass (by decide))).any rfl
      fun arg moved rest split => ?_
    subst split
    refine Follows.bind (ih.moreArguments scopes clear.right (room.pass (by decide)).right) rfl
      fun args moved' rest split => ?_
    exact .stay _ rfl

theorem follows_moreArguments (ih : Following z fuel) (clear : Clear ahead)
    (room : Room 1 ahead (fuel + 1) fuel') :
    Follows z passed ahead False (scopes = ·)
      ((moreArguments (fuel + 1)).run (z.cursor passed ahead scopes))
      (parseMoreArguments z.last.position fuel' scopes.flatten ahead) := by
  obtain ⟨fuel', rfl⟩ := room.exists_succ
  unfold parseMoreArguments
  rw [moreArguments]
  obtain _ | ⟨t, ahead⟩ := ahead
  · rw [run_bind_of_ok (eat_of_not_nextIs z clear rfl)]
    exact .stay [] rfl
  dsimp only
  cases comma : t.kind == .comma with
  | true =>
    rw [run_bind_of_ok (eat_of_nextIs z clear comma), if_pos rfl, if_pos rfl]
    refine Follows.step (Follows.bind (ih.expression scopes clear.tail
      (room.step (by decide))).any rfl fun arg moved rest split => ?_)
    subst split
    refine Follows.bind (ih.moreArguments scopes clear.tail.right (room.step (by decide)).right) rfl
      fun args moved' rest split => ?_
    exact .stay _ rfl
  | false =>
    rw [run_bind_of_ok (eat_of_not_nextIs z clear comma)]
    exact .stay [] rfl

theorem follows_primary (ih : Following z fuel) (clear : Clear ahead)
    (room : Room 1 ahead (fuel + 1) fuel') :
    Follows z passed ahead True (scopes = ·)
      ((primary (fuel + 1)).run (z.cursor passed ahead scopes))
      (parsePrimary z.last.position fuel' scopes.flatten ahead) := by
  obtain ⟨fuel', rfl⟩ := room.exists_succ
  unfold parsePrimary
  rw [primary, run_bind_of_ok (peek_cursor z)]
  obtain _ | ⟨t, ahead⟩ := ahead
  · rw [List.headD_nil, z.eof]
    exact .fault _ rfl
  have visible := clear.head
  rw [List.headD_cons]
  dsimp only
  cases kind : t.kind with
  | eof => exact absurd kind visible
  | trueWord => exact constant_follows clear _
  | falseWord => exact constant_follows clear _
  | blankWord => exact constant_follows clear _
  | integer => exact number_follows clear readIntegerLiteral?
  | float => exact number_follows clear readFloatLiteral?
  | string =>
    dsimp only
    rw [run_bind_of_ok (advance_cursor z clear)]
    exact Follows.step (.stay _ rfl)
  | columnRef =>
    dsimp only
    rw [run_bind_of_ok (advance_cursor z clear)]
    exact Follows.step (.stay _ rfl)
  | identifier => exact reference_follows clear
  | quotedIdentifier => exact reference_follows clear
  | keyword => exact reference_follows clear
  | lParen =>
    dsimp only
    rw [run_bind_of_ok (advance_cursor z clear)]
    refine Follows.step (Follows.bind (ih.expression scopes clear.tail
      (room.step (by decide))).any rfl fun inner moved rest split => ?_)
    subst split
    exact follows_closing .rParen .closingGroup inner rfl clear.tail.right
  | and => exact follows_word clear
  | or => exact follows_word clear
  | not => exact follows_word clear
  | _ => exact .fault _ rfl

end Rules

/-- **All rules follow the parser** where there is fuel enough. -/
theorem following (z : Ending) (fuel : Nat) : Following z fuel := by
  induction fuel with
  | zero =>
    have none {k fuel' : Nat} {ahead : List Token} (room : Room (k + 1) ahead 0 fuel') : False := by
      have := room.1
      omega
    exact ⟨fun _ _ _ room => (none room).elim, fun _ _ _ _ room => (none room).elim,
      fun _ _ _ _ room => (none room).elim, fun _ _ _ _ _ room => (none room).elim,
      fun _ _ _ room => (none room).elim, fun _ _ _ room => (none room).elim,
      fun _ _ _ room => (none room).elim, fun _ _ _ room => (none room).elim,
      fun _ _ _ room => (none room).elim, fun _ _ _ room => (none room).elim⟩
  | succ fuel ih =>
    exact ⟨fun _ _ => follows_expression ih, fun _ _ _ => follows_bindings ih,
      fun _ _ _ => follows_binary ih, fun _ _ _ _ => follows_operators ih,
      fun _ _ => follows_unary ih, fun _ _ => follows_power ih, fun _ _ => follows_call ih,
      fun _ _ => follows_arguments ih, fun _ _ => follows_moreArguments ih,
      fun _ _ => follows_primary ih⟩

/-- A definition is followed too, in a scope or in none. -/
theorem exists_follows_measure {z : Ending} {fuel : Nat} {passed ahead : List Token}
    {scopes : List Scope} (clear : Clear ahead) (enough : 10 * ahead.length + 6 ≤ fuel) :
    ∃ result, Follows z passed ahead True (scopes = ·)
        ((measure fuel).run (z.cursor passed ahead scopes)) result ∧
      (scopes.flatten = [] → result = TokenStream.parseMeasure ⟨ahead, z.last.position⟩) := by
  unfold TokenStream.parseMeasure
  rw [measure, run_bind_of_ok (check_cursor z clear .columnRef)]
  obtain _ | ⟨name, ahead⟩ := ahead
  · exact ⟨_, .fault .measureName rfl, fun _ => rfl⟩
  rw [nextIs_cons]
  dsimp only
  cases name.kind == .columnRef with
  | false => exact ⟨_, .fault .measureName rfl, fun _ => rfl⟩
  | true =>
    rw [if_pos rfl, if_pos rfl, run_bind_of_ok (advance_cursor z clear)]
    obtain _ | ⟨eq, ahead⟩ := ahead
    · rw [run_bind_of_ok (eat_of_not_nextIs z clear.tail rfl)]
      exact ⟨_, .step (.fault .measureEquals rfl), fun _ => rfl⟩
    dsimp only
    cases sign : eq.kind == .eq with
    | false =>
      rw [run_bind_of_ok (eat_of_not_nextIs z clear.tail sign)]
      exact ⟨_, .step (.fault .measureEquals rfl), fun _ => rfl⟩
    | true =>
      rw [run_bind_of_ok (eat_of_nextIs z clear.tail sign), if_pos rfl, if_pos rfl]
      have room : Room 6 ahead fuel (TokenStream.fuelFor ahead.length) := by
        simp only [List.length_cons] at enough
        constructor
        · omega
        · rw [TokenStream.fuelFor]
          omega
      have whole : Follows z (passed ++ [name] ++ [eq]) ahead False (scopes = ·)
          ((do
            let body ← expression fuel
            pure (.measure (stripDelimiters name.lexeme) body none none) : Walk Expr).run
              (z.cursor (passed ++ [name] ++ [eq]) ahead scopes))
          (parseExpr z.last.position (TokenStream.fuelFor ahead.length) scopes.flatten ahead >>=
            fun found =>
              .ok (.measure (stripDelimiters name.lexeme) found.1 none none, found.2)) :=
        ((following z fuel).expression scopes clear.tail.tail room).any.bind rfl
          fun body moved rest split => .stay _ rfl
      refine ⟨_, .step (.step whole), fun unbound => ?_⟩
      rw [unbound]

end Walk

/-- **From both starting points the parser is followed**, where no variable is bound. -/
theorem Entry.exists_follows (entry : Entry) (z : Ending) (passed : List Token)
    (scopes : List Scope) {fuel : Nat} {ahead : List Token} (clear : Clear ahead)
    (enough : TokenStream.fuelFor ahead.length ≤ fuel) :
    ∃ result, Walk.Follows z passed ahead True (scopes = ·)
        ((entry.walk fuel).run (z.cursor passed ahead scopes)) result ∧
      (scopes.flatten = [] → result = entry.parse ⟨ahead, z.last.position⟩) := by
  rw [TokenStream.fuelFor] at enough
  cases entry with
  | expression =>
    have room : Walk.Room 6 ahead fuel (TokenStream.fuelFor ahead.length) := by
      rw [TokenStream.fuelFor]
      constructor <;> omega
    refine ⟨_, (Walk.following z fuel).expression scopes clear room, fun unbound => ?_⟩
    rw [unbound]
    rfl
  | measure => exact Walk.exists_follows_measure clear (by omega)

end MeasureSql.Dax
