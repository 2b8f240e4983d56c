import MeasureSql.Proofs.Dax.Display

/-!
# What the written form is read as

The words of the written form derive a tree, whether the form is faithful or not.  A sign before the
base of a power comes to stand before the power, `NOT` before a parenthesis becomes a call, a whole
float becomes a whole number and an infinity becomes a name.  Everywhere else the tree is read back,
so it is the same exactly when every node keeps its shape.

## Main definitions

* `raiseUnder` — a power whose base has been read with signs in front of it.
* `Expr.reread` — the tree that the words of the written form derive.

## Main results

* `readsBack` — the words derive it, if names are plain and no exponent begins with a sign.
* `reread_eq_self_iff` — it is the same tree when every node keeps its shape.
-/

namespace MeasureSql.Dax

open Text

/-! ## The tree that is read -/

/-- A power whose base has been read with `n` signs in front of it. -/
def raiseUnder : Nat → Expr → Expr → Expr
  | 0, base, exponent => .binary base .power exponent
  | n + 1, .unary op base, exponent => .unary op (raiseUnder n base exponent)
  | _ + 1, base, exponent => .binary base .power exponent

/-- A literal as it is read back. -/
def Literal.reread : Literal → Expr
  | .float x =>
    if x.staysFloat then .literal (.float x)
    else match x with
      | .finite _ _ _ => .literal (.integer (digitsValue (x.write .plain).toList))
      | _ => .table (x.write .plain)
  | value => .literal value

namespace Expr

mutual

/-- A tree as it is read back. -/
def reread : Expr → Expr
  | .literal value => value.reread
  | .column ref => .column ref
  | .table name => .table name
  | .call name args => .call name (rereadAll args)
  | .binary l op r =>
    if op = .power then raiseUnder l.signs (reread l) (reread r)
    else .binary (reread l) op (reread r)
  | .unary .negate e => .unary .negate (reread e)
  | .unary .not e => if e.isBinary then .call "NOT" [reread e] else .unary .not (reread e)
  | .variable name value => .variable name value
  | .cond c t none => .cond (reread c) (reread t) none
  | .cond c t (some e) => .cond (reread c) (reread t) (some (reread e))
  | .measure name body format description => .measure name body format description

/-- Each tree of a list as it is read back. -/
def rereadAll : List Expr → List Expr
  | [] => []
  | e :: es => reread e :: rereadAll es

end

end Expr

/-! ## Operands -/

/-- What the words of a written form derive. -/
structure ReadsBack (e : Expr) : Prop where
  signed : Says e.words (.signed e.reread)
  call : e.signs = 0 → Says e.words (.call e.reread)
  group : e.isBinary = true → ∃ ws, e.words = enclosed ws ∧ Says ws (.expression e.reread)
  raised : ∀ {ws : List Word} {x : Expr}, Says ws (.power x) →
    Says (joined e.words BinaryOp.power.word ws) (.signed (raiseUnder e.signs e.reread x))

section Says

variable {e : Expr}

theorem Says.power {ws ws' : List Word} {base x : Expr} (h : Says ws (.call base))
    (hx : Says ws' (.power x)) :
    Says (Dax.joined ws BinaryOp.power.word ws') (.power (.binary base .power x)) := by
  have caret : (Word.token BinaryOp.power.word).kind = .caret := rfl
  have whole := Derives.raise h caret hx
  simpa [Says, Dax.joined] using whole

theorem ReadsBack.expression (h : ReadsBack e) : Says e.words (.expression e.reread) :=
  Says.expression_level (.operand h.signed)

/-- An operand without a sign. -/
theorem ReadsBack.of_call (unsigned : e.signs = 0) (single : e.isBinary = false)
    (h : Says e.words (.call e.reread)) : ReadsBack e where
  signed := h.signed_call
  call _ := h
  group binary := by
    rw [single] at binary
    cases binary
  raised hx := by
    rw [unsigned]
    exact .unsigned (h.power hx)

theorem ReadsBack.of_primary (unsigned : e.signs = 0) (single : e.isBinary = false)
    (h : Says e.words (.primary e.reread)) : ReadsBack e :=
  .of_call unsigned single h.call_primary

/-- An operation in parentheses. -/
theorem ReadsBack.of_group {ws : List Word} (binary : e.isBinary = true)
    (words : e.words = enclosed ws) (h : Says ws (.expression e.reread)) : ReadsBack e := by
  have unsigned : e.signs = 0 := by
    cases e <;> first | rfl | cases binary
  have call : Says e.words (.call e.reread) := by
    rw [words]
    exact h.enclosed.call_primary
  refine ⟨call.signed_call, fun _ => call, fun _ => ⟨ws, words, h⟩, fun hx => ?_⟩
  rw [unsigned]
  exact .unsigned (call.power hx)

theorem joinsAt_word {op : BinaryOp} (hpower : op ≠ .power) :
    JoinsAt op.word.1 op op.strength := by
  cases op with
  | power => exact absurd rfl hpower
  | _ => constructor

theorem strength_lt_seven_of_ne {op : BinaryOp} (hpower : op ≠ .power) : op.strength < 7 :=
  strength_lt_seven (joinsAt_iff.mp (joinsAt_word hpower)).1

/-- **An operation reads back** when its operands do, and its exponent begins with no sign. -/
theorem ReadsBack.binary {l r : Expr} {op : BinaryOp} (hl : ReadsBack l) (hr : ReadsBack r)
    (bare : op = .power → r.signs = 0) : ReadsBack (.binary l op r) := by
  refine .of_group rfl rfl ?_
  by_cases hpower : op = .power
  · subst hpower
    have exponent : Says r.words (.power r.reread) := .unraised (hr.call (bare rfl))
    rw [Expr.reread, if_pos rfl]
    exact Says.expression_level (.operand (hl.raised exponent))
  · have low := strength_lt_seven_of_ne hpower
    have left : Says l.words (.level op.strength l.reread) :=
      Says.weaken (by omega) (.operand hl.signed)
    have right : Says r.words (.level (op.strength + 1) r.reread) :=
      Says.weaken (by omega) (.operand hr.signed)
    rw [Expr.reread, if_neg hpower]
    exact (left.joined (joinsAt_word hpower) right).expression_level

theorem ReadsBack.negate (h : ReadsBack e) : ReadsBack (.unary .negate e) where
  signed := .negate rfl h.signed
  call signed := absurd signed (Nat.succ_ne_zero _)
  group := nofun
  raised hx := .negate rfl (h.raised hx)

/-- `NOT` before a parenthesis is a call, and a sign before anything else. -/
theorem ReadsBack.not (h : ReadsBack e)
    (opens : ∀ ws, nextIs .lParen ((e.words ++ ws).map Word.token) = e.isBinary) :
    ReadsBack (.unary .not e) := by
  cases binary : e.isBinary with
  | true =>
    obtain ⟨ws, words, inner⟩ := h.group binary
    refine .of_call (by rw [Expr.signs, if_pos binary]) rfl ?_
    rw [Expr.reread, if_pos binary, Expr.words, words]
    exact inner.notCall
  | false =>
    have next := opens []
    rw [binary, List.append_nil] at next
    have reread : (Expr.unary .not e).reread = .unary .not e.reread := by
      rw [Expr.reread, binary, if_neg Bool.false_ne_true]
    have signs : (Expr.unary .not e).signs = e.signs + 1 := by
      rw [Expr.signs, binary, if_neg Bool.false_ne_true]
    refine ⟨?_, ?_, by rintro ⟨⟩, @fun ws x hx => ?_⟩
    · rw [reread]
      exact .not rfl next h.signed
    · rw [signs]
      exact fun none => absurd none (Nat.succ_ne_zero _)
    · rw [reread, signs]
      refine .not rfl ?_ (h.raised hx)
      have next' := opens (BinaryOp.power.word :: ws)
      rw [binary] at next'
      exact next'

end Says

/-! ## Names -/

theorem ofWord_of_isNameWord {name : String} (h : isNameWord name = true) :
    TokenKind.ofWord name = .identifier ∨ TokenKind.ofWord name = .keyword := by
  have kinds := (Bool.and_eq_true_iff.mp h).2
  simpa using kinds

/-- The word that a table is written as is a name, and it stands for the table. -/
theorem nameValue_tableWord {name : String} (plain : isPlainTable name = true) :
    (tableWord name).1.isName = true ∧ (tableWord name).token.nameValue = name := by
  unfold isPlainTable at plain
  unfold tableWord
  split at plain
  · next spaced =>
    have quotes : stripDelimiters ("'" ++ name ++ "'") = name := stripDelimiters_between rfl rfl _
    rw [if_pos spaced]
    exact ⟨rfl, by simp [Token.nameValue, Word.token, quotes, unescape_plain plain]⟩
  · next single =>
    rw [if_neg single]
    rcases ofWord_of_isNameWord plain with kind | kind
    · rw [kind]
      exact ⟨rfl, rfl⟩
    · rw [kind]
      exact ⟨rfl, rfl⟩

/-- A table is read back. -/
theorem says_table {name : String} (plain : isPlainTable name = true) :
    Says [tableWord name] (.primary (.table name)) := by
  obtain ⟨isName, value⟩ := nameValue_tableWord plain
  have derived : Derives [] [(tableWord name).token] (.primary (.table _)) :=
    .table isName fun _ => rfl
  rwa [value] at derived

/-- A column is read back. -/
theorem says_column {table : Option String} {name : String}
    (plain : table.all isPlainTable = true) :
    Says (ColumnRef.words ⟨table, name⟩) (.primary (.column ⟨table, name⟩)) := by
  have brackets : stripDelimiters ("[" ++ name ++ "]") = name := stripDelimiters_between rfl rfl _
  have hcolumn : (columnWord name).token.kind = .columnRef := rfl
  have spelled : stripDelimiters (columnWord name).token.lexeme = name := brackets
  cases table with
  | none =>
    have derived : Derives [] [(columnWord name).token] _ := .column hcolumn
    rwa [spelled] at derived
  | some table =>
    have table' : isPlainTable table = true := plain
    obtain ⟨isName, value⟩ := nameValue_tableWord table'
    have derived : Derives [] [(tableWord table).token, (columnWord name).token] _ :=
      .qualified isName hcolumn
    rwa [value, spelled] at derived

/-- What can be called is read as a callee. -/
theorem says_callee {name : String} (callee : isCalleeWord name = true) :
    Says [(.ofWord name, name)] (.callee name) := by
  have kinds : TokenKind.ofWord name ∈ [TokenKind.identifier, .keyword, .and, .or, .not] := by
    have kinds := (Bool.and_eq_true_iff.mp callee).2
    rwa [List.contains_iff_mem] at kinds
  have letters : TokenKind.ofWord name ∈ [TokenKind.and, .or, .not] →
      name.toList.all Char.isAlpha = true := by
    intro operator
    exact isAlpha_of_ofWord (by rwa [String.ofList_toList])
  generalize TokenKind.ofWord name = kind at kinds letters
  simp only [List.mem_cons, List.not_mem_nil, or_false] at kinds
  rcases kinds with rfl | rfl | rfl | rfl | rfl
  · exact .namedFunction rfl
  · exact .bareName (.table rfl fun _ => rfl)
  all_goals
    exact .operatorWord (by simpa [Token.isOperatorWord, Word.token] using letters (by decide))

/-- The arguments of a call are read back. -/
theorem says_further {es : List Expr} (h : ∀ e ∈ es, ReadsBack e) :
    Says (furtherWords (Expr.wordsAll es)) (.moreArguments (Expr.rereadAll es)) := by
  induction es with
  | nil => exact .noMore
  | cons e es ih =>
    have comma : (Word.token (.comma, ",")).kind = .comma := rfl
    have whole := Derives.more comma (h e (by simp)).expression
      (ih fun e he => h e (List.mem_cons_of_mem _ he))
    simpa [Says, furtherWords, Expr.wordsAll, Expr.rereadAll] using whole

theorem says_arguments {es : List Expr} (h : ∀ e ∈ es, ReadsBack e) :
    Says (separated (Expr.wordsAll es)) (.arguments (Expr.rereadAll es)) := by
  cases es with
  | nil => exact .noArguments
  | cons e es =>
    have whole := Derives.someArguments (h e (by simp)).expression
      (says_further fun e he => h e (List.mem_cons_of_mem _ he))
    simpa [Says, separated, Expr.wordsAll, Expr.rereadAll] using whole

/-- **A call is read back** with its arguments. -/
theorem says_call {name : String} {es : List Expr} (callee : isCalleeWord name = true)
    (h : ∀ e ∈ es, ReadsBack e) {e : Expr} (applied : IsApplied name (Expr.rereadAll es) e) :
    Says (callWords name (Expr.wordsAll es)) (.call e) := by
  have left : (Word.token (.lParen, "(")).kind = .lParen := rfl
  have right : (Word.token (.rParen, ")")).kind = .rParen := rfl
  have whole := Derives.apply (says_callee callee) left (says_arguments h) right applied
  simpa [Says, callWords, enclosed] using whole

theorem length_rereadAll (es : List Expr) : (Expr.rereadAll es).length = es.length := by
  induction es with
  | nil => rfl
  | cons e es ih => rw [Expr.rereadAll, List.length_cons, List.length_cons, ih]

/-! ## Literals -/

/-- Digits beyond 64 bits are read as a float. -/
theorem readIntegerLiteral?_large {digits : List Char} (nonempty : digits ≠ [])
    (all : ∀ c ∈ digits, c.isDigit = true) (large : ¬digitsValue digits < 2 ^ 63) :
    readIntegerLiteral? (String.ofList digits) =
      (Double.read? (String.ofList digits)).map .float := by
  have none := readInt64?_digits nonempty all
  rw [if_neg large] at none
  simp [readIntegerLiteral?, any_exponent_digits all, none]

theorem readIntegerLiteral?_small {digits : List Char} (nonempty : digits ≠ [])
    (all : ∀ c ∈ digits, c.isDigit = true) (small : digitsValue digits < 2 ^ 63) :
    readIntegerLiteral? (String.ofList digits) = some (.integer (digitsValue digits)) := by
  have some := readInt64?_digits nonempty all
  rw [if_pos small] at some
  simp [readIntegerLiteral?, any_exponent_digits all, some]

/-- **A float is read back** as a float or as a whole number. -/
theorem says_float {m : Nat} {e : Int} (canonical : Double.Canonical m e) :
    Says (Literal.words (.float (.finite false m e)))
      (.primary (Literal.reread (.float (.finite false m e)))) := by
  rw [Literal.words, Literal.reread, Double.staysFloat, floatKind]
  cases whole : Double.wholeValue? m e with
  | none =>
    obtain ⟨whole', fraction, text, -, -, -, -, read⟩ :=
      Double.write_plain_fraction canonical whole
    rw [← text] at read
    exact .literal (.float rfl (by simp [readFloatLiteral?, Word.token, read]))
  | some n =>
    obtain ⟨digits, text, nonempty, all, read, fits⟩ := Double.write_plain_whole canonical whole
    by_cases large : 2 ^ 63 ≤ n
    · have literal := readIntegerLiteral?_large nonempty all
        (fun small => absurd (fits.mp small) (not_lt.mpr large))
      rw [read, ← text] at literal
      simp only [large, decide_true, if_true]
      exact .literal (.integer rfl literal)
    · have literal := readIntegerLiteral?_small nonempty all (fits.mpr (not_le.mp large))
      rw [← text] at literal
      simp only [large, decide_false, if_false, Bool.false_eq_true]
      rw [text, String.toList_ofList, ← text]
      exact .literal (.integer rfl literal)

theorem says_infinite : Says (Literal.words (.float (.infinite false)))
    (.primary (Literal.reread (.float (.infinite false)))) :=
  .table (t := Word.token (.identifier, "inf")) rfl fun _ => rfl

/-! ## Trees -/

theorem ofWord_ne_lParen (name : String) : TokenKind.ofWord name ≠ .lParen := fun same =>
  absurd (same ▸ ofWord_mem_wordKinds name) (by decide)

theorem tableWord_ne_lParen (name : String) : (tableWord name).1 ≠ .lParen := by
  unfold tableWord
  split
  · exact nofun
  · exact ofWord_ne_lParen name

theorem floatKind_ne_lParen (x : Double) : floatKind x ≠ .lParen := by
  unfold floatKind
  split
  · split <;> exact nofun
  · exact nofun

/-- **Only an operation between operands is written with a parenthesis in front.** -/
theorem nextIs_words {e : Expr} (he : e.IsSourced) (ws : List Word) :
    nextIs .lParen ((e.words ++ ws).map Word.token) = e.isBinary := by
  cases he with
  | @float m e canonical => exact beq_eq_false_iff_ne.mpr (floatKind_ne_lParen (.finite false m e))
  | boolean b => cases b <;> rfl
  | @column table name nonempty closed =>
    cases table with
    | none => rfl
    | some table => exact beq_eq_false_iff_ne.mpr (tableWord_ne_lParen table)
  | table name => exact beq_eq_false_iff_ne.mpr (tableWord_ne_lParen name)
  | @call name args hname hargs => exact beq_eq_false_iff_ne.mpr (ofWord_ne_lParen name)
  | unary op he => cases op <;> rfl
  | ifThen hc ht => exact beq_eq_false_iff_ne.mpr (ofWord_ne_lParen "IF")
  | ifThenElse hc ht he => exact beq_eq_false_iff_ne.mpr (ofWord_ne_lParen "IF")
  | _ => rfl

/-- **The words of the written form derive the tree that is read back**, if names are plain and no
exponent begins with a sign. -/
theorem readsBack {e : Expr} (he : e.IsSourced) (plain : e.everywhere Expr.plainNames = true)
    (bare : e.everywhere Expr.bareExponents = true) : ReadsBack e := by
  induction he with
  | @integer n nonnegative fits =>
    have small : n.toNat < 2 ^ 63 := by omega
    have read := readIntegerLiteral?_toDigits small
    rw [← toString_of_nonneg nonnegative, Int.toNat_of_nonneg nonnegative] at read
    exact .of_primary rfl rfl (.literal (.integer rfl read))
  | float canonical => exact .of_primary rfl rfl (says_float canonical)
  | infinite => exact .of_primary rfl rfl says_infinite
  | text body =>
    have derived : Derives [] [Word.token (.string, "\"" ++ body ++ "\"")] (.primary _) :=
      .literal (.string rfl)
    have quotes : stripDelimiters ("\"" ++ body ++ "\"") = body := stripDelimiters_between rfl rfl _
    rw [Word.token, quotes, unescape_plain plain] at derived
    exact .of_primary rfl rfl derived
  | boolean b =>
    refine .of_primary rfl rfl ?_
    cases b with
    | true => exact .constant .true
    | false => exact .constant .false
  | blank => exact .of_primary rfl rfl (.constantCall .blank rfl rfl)
  | column nonempty closed => exact .of_primary rfl rfl (says_column plain)
  | table name => exact .of_primary rfl rfl (says_table plain)
  | @call name args hname hargs ih =>
    simp only [Expr.everywhere, Bool.and_eq_true, Expr.everywhereAll_eq_true] at plain bare
    refine .of_call rfl rfl
      (says_call plain.1 (fun e he => ih e he (plain.2 e he) (bare.2 e he)) ?_)
    exact .call (by rwa [length_rereadAll])
  | @binary l r op hl hr ihl ihr =>
    simp only [Expr.everywhere, Bool.and_eq_true] at plain bare
    refine (ihl plain.1.2 bare.1.2).binary (ihr plain.2 bare.2) ?_
    rintro rfl
    simpa [Expr.bareExponents] using bare.1.1
  | @unary e op he ih =>
    simp only [Expr.everywhere, Bool.and_eq_true] at plain bare
    have inner := ih plain.2 bare.2
    cases op with
    | negate => exact inner.negate
    | not => exact inner.not (nextIs_words he)
  | @ifThen c t hc ht ihc iht =>
    simp only [Expr.everywhere, Expr.everywhereOpt, Bool.and_eq_true] at plain bare
    have applied : IsApplied "IF" (Expr.rereadAll [c, t]) (.cond c.reread t.reread none) :=
      .ifThen (by decide)
    refine .of_call rfl rfl (says_call (by decide) (fun e he => ?_) applied)
    simp only [List.mem_cons, List.not_mem_nil, or_false] at he
    rcases he with rfl | rfl
    · exact ihc plain.1.1.2 bare.1.1.2
    · exact iht plain.1.2 bare.1.2
  | @ifThenElse c t e hc ht he ihc iht ihe =>
    simp only [Expr.everywhere, Expr.everywhereOpt, Bool.and_eq_true] at plain bare
    have applied : IsApplied "IF" (Expr.rereadAll [c, t, e])
        (.cond c.reread t.reread (some e.reread)) := .ifThenElse (by decide)
    refine .of_call rfl rfl (says_call (by decide) (fun e he => ?_) applied)
    simp only [List.mem_cons, List.not_mem_nil, or_false] at he
    rcases he with rfl | rfl | rfl
    · exact ihc plain.1.1.2 bare.1.1.2
    · exact iht plain.1.2 bare.1.2
    · exact ihe plain.2 bare.2

/-! ## Shapes -/

theorem rereadAll_eq_self_iff {es : List Expr}
    (h : ∀ e ∈ es, (e.reread = e ↔ e.everywhere Expr.ownShape = true)) :
    Expr.rereadAll es = es ↔ Expr.everywhereAll Expr.ownShape es = true := by
  induction es with
  | nil => simp [Expr.rereadAll, Expr.everywhereAll]
  | cons e es ih =>
    rw [Expr.rereadAll, Expr.everywhereAll, List.cons.injEq, Bool.and_eq_true, h e (by simp),
      ih fun e he => h e (List.mem_cons_of_mem _ he)]

/-- A base without a sign stays the base of the power. -/
theorem raiseUnder_of_not_isSigned {l : Expr} (single : l.isSigned = false) (base x : Expr) :
    raiseUnder l.signs base x = .binary base .power x := by
  rw [Expr.signs_eq_zero_of_isSigned single, raiseUnder]

/-- The sign of a base comes to stand before the power, or becomes a call. -/
theorem raiseUnder_ne_of_isSigned {l : Expr} (signed : l.isSigned = true) (x r : Expr) :
    raiseUnder l.signs l.reread x ≠ .binary l .power r := by
  cases l with
  | unary op e =>
    cases op with
    | negate => exact nofun
    | not =>
      cases binary : e.isBinary with
      | true =>
        rw [Expr.signs, Expr.reread, if_pos binary, if_pos binary, raiseUnder]
        intro same
        cases (Expr.binary.inj same).1
      | false =>
        rw [Expr.signs, Expr.reread, binary, if_neg Bool.false_ne_true, if_neg Bool.false_ne_true]
        exact nofun
  | _ => cases signed

/-- An exponent that is read back has no sign, unless it begins with one. -/
theorem isSigned_of_reread {r : Expr} (bare : r.signs = 0) (h : r.reread = r) :
    r.isSigned = false := by
  cases r with
  | unary op e =>
    cases op with
    | negate => exact absurd bare (Nat.succ_ne_zero _)
    | not =>
      cases binary : e.isBinary with
      | true =>
        rw [Expr.reread, if_pos binary] at h
        cases h
      | false =>
        rw [Expr.signs, binary, if_neg Bool.false_ne_true] at bare
        exact absurd bare (Nat.succ_ne_zero _)
  | _ => rfl

/-- **A tree is read back as itself** exactly when every node keeps its shape. -/
theorem reread_eq_self_iff {e : Expr} (he : e.IsSourced)
    (bare : e.everywhere Expr.bareExponents = true) :
    e.reread = e ↔ e.everywhere Expr.ownShape = true := by
  induction he with
  | @float m e canonical =>
    rw [Expr.reread, Literal.reread, Expr.everywhere, Expr.ownShape]
    cases stays : (Double.finite false m e).staysFloat <;> simp
  | infinite => exact iff_of_false (by rintro ⟨⟩) (by rintro ⟨⟩)
  | call hname hargs ih =>
    simp only [Expr.everywhere, Bool.and_eq_true, Expr.everywhereAll_eq_true] at bare
    have all := rereadAll_eq_self_iff fun e he => ih e he (bare.2 e he)
    rw [Expr.reread, Expr.call.injEq, Expr.everywhere, Bool.and_eq_true, all]
    exact and_congr_left fun _ => iff_of_true rfl rfl
  | @binary l r op hl hr ihl ihr =>
    simp only [Expr.everywhere, Bool.and_eq_true] at bare
    rw [Expr.reread, Expr.everywhere, Bool.and_eq_true, Bool.and_eq_true, ← ihl bare.1.2,
      ← ihr bare.2]
    by_cases hpower : op = .power
    · subst hpower
      have bareAt : r.signs = 0 := by simpa [Expr.bareExponents] using bare.1.1
      rw [if_pos rfl]
      cases signed : l.isSigned with
      | true =>
        refine iff_of_false (raiseUnder_ne_of_isSigned signed _ _) ?_
        simp [Expr.ownShape, signed]
      | false =>
        have shape : (Expr.binary l .power r).ownShape = !r.isSigned := by
          simp [Expr.ownShape, signed]
        rw [raiseUnder_of_not_isSigned signed, Expr.binary.injEq, shape, Bool.not_eq_true']
        constructor
        · rintro ⟨hl', -, hr'⟩
          exact ⟨⟨isSigned_of_reread bareAt hr', hl'⟩, hr'⟩
        · rintro ⟨⟨-, hl'⟩, hr'⟩
          exact ⟨hl', rfl, hr'⟩
    · have shape : (Expr.binary l op r).ownShape = true := by
        cases op <;> first | rfl | exact absurd rfl hpower
      rw [if_neg hpower, Expr.binary.injEq, shape]
      simp
  | @unary e op he ih =>
    simp only [Expr.everywhere, Bool.and_eq_true] at bare
    rw [Expr.everywhere, Bool.and_eq_true, ← ih bare.2]
    cases op with
    | negate => simp [Expr.reread, Expr.ownShape]
    | not => cases binary : e.isBinary <;> simp [Expr.reread, Expr.ownShape, binary]
  | ifThen hc ht ihc iht =>
    simp only [Expr.everywhere, Expr.everywhereOpt, Bool.and_eq_true] at bare
    simp only [Expr.reread, Expr.everywhere, Expr.everywhereOpt, Expr.ownShape, Expr.cond.injEq,
      Bool.and_true, Bool.true_and, Bool.and_eq_true, ihc bare.1.1.2, iht bare.1.2, and_true]
  | ifThenElse hc ht he ihc iht ihe =>
    simp only [Expr.everywhere, Expr.everywhereOpt, Bool.and_eq_true] at bare
    simp only [Expr.reread, Expr.everywhere, Expr.everywhereOpt, Expr.ownShape, Expr.cond.injEq,
      Option.some.injEq, Bool.true_and, Bool.and_eq_true, ihc bare.1.1.2, iht bare.1.2, ihe bare.2,
      and_assoc]
  | _ => exact iff_of_true rfl rfl

end MeasureSql.Dax
