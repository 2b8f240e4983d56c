import MeasureSql.Proofs.Dax.Display

/-!
# Characters that cannot be written for nothing

Quotation marks, backslashes and minus signs are never set by chance.  To be read, a text with such
characters needs more of them, since they are escaped, and a name with them needs quotation marks
around it.  The written form sets every one of them once, so a tree whose texts and names hold any
cannot be read from its own written form: there are not enough of them.

## Main definitions

* `isSensitive` — the characters that are counted.
* `Expr.cost` — how many of them a text has to have to be read as a tree.

## Main results

* `weight_le_of_cuts` — the words of a text have no more of them than the text.
* `Derives.cost_le` — what words derive costs no more than the words have.
* `sensitives_display` — the written form has no more of them than the tree costs, and just as many
  only if names are plain.
-/

namespace MeasureSql.Dax

open Text

/-! ## Counting -/

/-- The characters that are counted: quotation marks, the backslash and the minus sign. -/
def isSensitive (c : Char) : Bool :=
  c == '"' || c == '\x27' || c == '\\' || c == '-'

/-- How many of them a text has. -/
def sensitives (s : String) : Nat :=
  s.toList.countP isSensitive

@[simp]
theorem sensitives_append (s t : String) : sensitives (s ++ t) = sensitives s + sensitives t := by
  rw [sensitives, String.toList_append, List.countP_append]
  rfl

theorem sensitives_intercalate (ts : List String) :
    sensitives (", ".intercalate ts) = (ts.map sensitives).sum := by
  induction ts with
  | nil => rfl
  | cons t ts ih =>
    cases ts with
    | nil => rw [String.intercalate_singleton, List.map_singleton, List.sum_singleton]
    | cons u ts =>
      have comma : sensitives ", " = 0 := by decide
      rw [String.intercalate_cons_cons, sensitives_append, sensitives_append, comma, ih]
      simp

/-- How many of them tokens have. -/
def weight (seg : List Token) : Nat :=
  (seg.map fun t => sensitives t.lexeme).sum

@[simp]
theorem weight_append (seg seg' : List Token) :
    weight (seg ++ seg') = weight seg + weight seg' := by
  simp [weight]

@[simp]
theorem weight_cons (t : Token) (seg : List Token) :
    weight (t :: seg) = sensitives t.lexeme + weight seg := by
  simp [weight]

@[simp]
theorem weight_nil : weight [] = 0 := rfl

/-- **The words of a text have no more of them than the text.** -/
theorem weight_le_of_cuts {cs : List Char} {ws : List Word} (h : Cuts cs ws) :
    weight (ws.map Word.token) ≤ cs.countP isSensitive := by
  induction h with
  | done => exact Nat.le_refl _
  | @trivia cs s ws found more ih =>
    rw [← (splits_nextTrivia? found).append, List.countP_append]
    omega
  | @token cs kind s ws significant found more ih =>
    have lexeme : sensitives (Word.token (kind, String.ofList s.taken)).lexeme =
        s.taken.countP isSensitive := by
      rw [sensitives, Word.token, String.toList_ofList]
    rw [← (tokenRule_of_nextToken? found).splits.append, List.countP_append, List.map_cons,
      weight_cons, lexeme]
    omega

/-! ## Costs -/

/-- What a text costs between quotation marks, where these and backslashes are escaped. -/
def quotedCost (mark : Char) (body : String) : Nat :=
  sensitives body + body.toList.countP (fun c => c == mark || c == '\\') + 2

/-- What a name costs. -/
def nameCost (name : String) : Nat :=
  if isNameWord name then 0 else quotedCost '\x27' name

/-- What the name of a call costs. -/
def calleeCost (name : String) : Nat :=
  if isCalleeWord name then 0 else quotedCost '\x27' name

namespace Expr

mutual

/-- How many of these characters a text needs to be read as a tree. -/
def cost : Expr → Nat
  | .literal (.string body) => quotedCost '"' body
  | .literal _ => 0
  | .column ref => (ref.table.elim 0 nameCost) + sensitives ref.column
  | .table name => nameCost name
  | .call name args => calleeCost name + costAll args
  | .binary l op r => cost l + sensitives op.symbol + cost r
  | .unary .negate e => cost e + 1
  | .unary .not e => cost e
  | .variable _ _ => 0
  | .cond c t none => cost c + cost t
  | .cond c t (some e) => cost c + cost t + cost e
  | .measure _ _ _ _ => 0

/-- The same for a list. -/
def costAll : List Expr → Nat
  | [] => 0
  | e :: es => cost e + costAll es

end

end Expr

/-- The same for a phrase. -/
def Phrase.cost : Phrase → Nat
  | .expression e | .bindings e | .result e | .level _ e | .signed e | .power e | .call e
  | .primary e => e.cost
  | .arguments es | .moreArguments es => Expr.costAll es
  | .callee name => calleeCost name

theorem isSensitive_of_escapeValue {d : Char} (h : isSensitive (escapeValue d) = true) :
    isSensitive d = true := by
  unfold escapeValue at h
  split at h
  · exact absurd h (by decide)
  · exact absurd h (by decide)
  · exact h

/-- **A quoted text has the characters that its value costs.** -/
theorem cost_unescapeChars {mark : Char} (sensitive : isSensitive mark = true) {body : List Char}
    (h : Escaped mark body) :
    (unescapeChars mark body).countP isSensitive +
      (unescapeChars mark body).countP (fun c => c == mark || c == '\\') ≤
        body.countP isSensitive := by
  induction h with
  | nil => exact Nat.le_refl _
  | plain noBackslash noMark h ih =>
    unfold unescapeChars
    simp only [beq_iff_eq, noBackslash, noMark, if_false, List.countP_cons, Bool.or_eq_true,
      or_self, Nat.add_zero]
    omega
  | backslash d h ih =>
    have kept := isSensitive_of_escapeValue (d := d)
    have slash : isSensitive '\\' = true := by decide
    unfold unescapeChars
    simp only [beq_self_eq_true, if_true, List.countP_cons, slash]
    split <;> split <;> split <;> simp_all <;> omega
  | twice noBackslash h ih =>
    unfold unescapeChars
    simp only [beq_iff_eq, noBackslash, if_false, if_true, beq_self_eq_true, List.countP_cons,
      sensitive, Bool.true_or]
    omega

/-- A token in quotation marks has what its value costs. -/
theorem quotedCost_le {mark : Char} (sensitive : isSensitive mark = true) {body : List Char}
    (h : Escaped mark body) {lexeme : String}
    (spelled : lexeme = .ofList (mark :: (body ++ [mark]))) :
    quotedCost mark (unescape mark (stripDelimiters lexeme)) ≤ sensitives lexeme := by
  have strip : stripDelimiters lexeme = .ofList body := by
    simp [stripDelimiters, spelled]
  have value := cost_unescapeChars sensitive h
  rw [strip, unescape, String.toList_ofList, quotedCost, sensitives, sensitives, spelled,
    String.toList_ofList, String.toList_ofList]
  simp only [List.countP_cons, List.countP_append, List.countP_nil, sensitive, if_true]
  omega

theorem sensitives_stripDelimiters (lexeme : String) :
    sensitives (stripDelimiters lexeme) ≤ sensitives lexeme := by
  rw [sensitives, stripDelimiters, String.toList_ofList]
  exact ((List.dropLast_sublist _).trans (List.drop_sublist 1 _)).countP_le

/-! ## Words -/

theorem isNameWord_of_genuine {t : Token} (genuine : Genuine t.word)
    (ht : t.kind = .identifier ∨ t.kind = .keyword) : isNameWord t.lexeme = true := by
  obtain ⟨word, kind⟩ := genuine.name ht
  have kind' : TokenKind.ofWord t.lexeme = t.kind := kind
  rw [isNameWord, Bool.and_eq_true, kind']
  refine ⟨word, ?_⟩
  rcases ht with ht | ht <;> rw [ht] <;> rfl

theorem isCalleeWord_of_isNameWord {name : String} (h : isNameWord name = true) :
    isCalleeWord name = true := by
  obtain ⟨word, kind⟩ := Bool.and_eq_true_iff.mp h
  rw [isCalleeWord, word, Bool.true_and]
  rw [List.contains_iff_mem] at kind ⊢
  simp only [List.mem_cons, List.not_mem_nil, or_false] at kind ⊢
  tauto

/-- A name has what it costs. -/
theorem nameCost_le {t : Token} (genuine : Genuine t.word) (ht : t.kind.isName = true) :
    nameCost t.nameValue ≤ sensitives t.lexeme := by
  have kinds : t.kind = .quotedIdentifier ∨ t.kind = .identifier ∨ t.kind = .keyword := by
    revert ht
    cases t.kind <;> simp [TokenKind.isName]
  rcases kinds with kind | kind
  · obtain ⟨body, escaped, spelled⟩ := genuine.quotedName kind
    have value : t.nameValue = unescape '\x27' (stripDelimiters t.lexeme) := by
      rw [Token.nameValue, kind, beq_self_eq_true, if_pos rfl]
    rw [value, nameCost]
    split
    · exact Nat.zero_le _
    · exact quotedCost_le (by decide) escaped spelled
  · have value : t.nameValue = t.lexeme := by
      rcases kind with kind | kind <;> rw [Token.nameValue, kind] <;> rfl
    rw [value, nameCost, if_pos (isNameWord_of_genuine genuine kind)]
    exact Nat.zero_le _

theorem calleeCost_le_nameCost (name : String) : calleeCost name ≤ nameCost name := by
  unfold calleeCost nameCost
  split
  · exact Nat.zero_le _
  · next notCallee =>
    rw [if_neg fun word => notCallee (isCalleeWord_of_isNameWord word)]

/-- A spelled-out operator costs nothing. -/
theorem calleeCost_of_isOperatorWord {t : Token} (genuine : Genuine t.word)
    (ht : t.isOperatorWord = true) : calleeCost t.lexeme = 0 := by
  simp only [Token.isOperatorWord, Bool.and_eq_true, Bool.or_eq_true, beq_iff_eq] at ht
  obtain ⟨kind, letters⟩ := ht
  obtain ⟨word, same⟩ := genuine.operator (by tauto) letters
  have kind' : TokenKind.ofWord t.lexeme = t.kind := same
  refine if_pos ?_
  rw [isCalleeWord, Bool.and_eq_true, kind']
  refine ⟨word, ?_⟩
  rcases kind with (kind | kind) | kind <;> rw [kind] <;> rfl

/-- An operator has what it costs. -/
theorem sensitives_symbol {t : Token} (genuine : Genuine t.word) {op : BinaryOp} {n : Nat}
    (h : JoinsAt t.kind op n) : sensitives op.symbol ≤ sensitives t.lexeme := by
  by_cases minus : t.kind = .minus
  · rw [minus] at h
    cases h
    rw [show t.lexeme = _ from genuine.minus minus]
    exact Nat.le_refl _
  · have nothing : sensitives op.symbol = 0 := by
      generalize t.kind = k at h minus
      cases h <;> first | rfl | exact absurd rfl minus
    omega

/-- What a literal costs. -/
theorem cost_literal {t : Token} (genuine : Genuine t.word) {value : Literal}
    (h : IsSpelled t value) : (Expr.literal value).cost ≤ sensitives t.lexeme := by
  cases h with
  | integer hkind hread =>
    unfold readIntegerLiteral? at hread
    dsimp only at hread
    split at hread
    · cases hread
      exact Nat.zero_le _
    · obtain ⟨x, -, rfl⟩ := Option.map_eq_some_iff.mp hread
      exact Nat.zero_le _
  | float hkind hread =>
    obtain ⟨x, -, rfl⟩ := Option.map_eq_some_iff.mp hread
    exact Nat.zero_le _
  | string hkind =>
    obtain ⟨body, escaped, spelled⟩ := genuine.text hkind
    exact quotedCost_le (by decide) escaped spelled

theorem cost_of_isConstant {k : TokenKind} {value : Literal} (h : IsConstant k value) :
    (Expr.literal value).cost = 0 := by
  cases h <;> rfl

theorem cost_of_isApplied {name : String} {args : List Expr} {e : Expr}
    (h : IsApplied name args e) : e.cost ≤ calleeCost name + Expr.costAll args := by
  cases h with
  | ifThen hname =>
    simp only [Expr.cost, Expr.costAll]
    omega
  | ifThenElse hname =>
    simp only [Expr.cost, Expr.costAll]
    omega
  | call hname => exact Nat.le_refl _

/-- **What words derive costs no more than the words have.** -/
theorem Derives.cost_le {scope : Scope} {seg : List Token} {phrase : Phrase}
    (h : Derives scope seg phrase) (genuine : ∀ t ∈ seg, Genuine t.word) :
    phrase.cost ≤ weight seg := by
  induction h with
  | ofBindings h ih => exact ih genuine
  | ofLevel h ih => exact ih genuine
  | bind hvar hname heq hvalue hrest ihvalue ihrest =>
    have result := ihrest fun t ht => genuine t (by simp [ht])
    simp only [weight_cons, weight_append, Phrase.cost] at result ⊢
    omega
  | moreBindings h ih => exact ih genuine
  | returned hword h ih =>
    have result := ih fun t ht => genuine t (by simp [ht])
    simp only [weight_cons, Phrase.cost] at result ⊢
    omega
  | join hl hop hr ihl ihr =>
    have left := ihl fun t ht => genuine t (by simp [ht])
    have right := ihr fun t ht => genuine t (by simp [ht])
    have operator := sensitives_symbol (genuine _ (by simp)) hop
    simp only [weight_cons, weight_append, Phrase.cost, Expr.cost] at left right ⊢
    omega
  | next h ih => exact ih genuine
  | operand h ih => exact ih genuine
  | @negate scope t seg e ht h ih =>
    have operand := ih fun t ht => genuine t (by simp [ht])
    have minus : sensitives t.lexeme = 1 := by
      rw [show t.lexeme = _ from (genuine t (by simp)).minus ht]
      decide
    simp only [weight_cons, Phrase.cost, Expr.cost] at operand ⊢
    omega
  | not ht hnext h ih =>
    have operand := ih fun t ht => genuine t (by simp [ht])
    simp only [weight_cons, Phrase.cost, Expr.cost] at operand ⊢
    omega
  | unsigned h ih => exact ih genuine
  | raise hbase ht hexponent ihbase ihexponent =>
    have base := ihbase fun t ht => genuine t (by simp [ht])
    have exponent := ihexponent fun t ht => genuine t (by simp [ht])
    have caret : sensitives BinaryOp.power.symbol = 0 := by decide
    simp only [weight_cons, weight_append, Phrase.cost, Expr.cost, caret] at base exponent ⊢
    omega
  | unraised h ih => exact ih genuine
  | apply hcallee hleft hargs hright happlied ihcallee ihargs =>
    have callee := ihcallee fun t ht => genuine t (by simp [ht])
    have args := ihargs fun t ht => genuine t (by simp [ht])
    have whole := cost_of_isApplied happlied
    simp only [weight_cons, weight_append, Phrase.cost] at callee args ⊢
    omega
  | unapplied h ih => exact ih genuine
  | namedFunction ht =>
    have name := nameCost_le (genuine _ List.mem_cons_self) (by rw [ht]; rfl)
    simp only [weight_cons, weight_nil, Phrase.cost]
    exact (calleeCost_le_nameCost _).trans name
  | operatorWord ht =>
    rw [Phrase.cost, calleeCost_of_isOperatorWord (genuine _ List.mem_cons_self) ht]
    exact Nat.zero_le _
  | bareName h ih => exact (calleeCost_le_nameCost _).trans (ih genuine)
  | noArguments => exact Nat.le_refl _
  | someArguments h hmore ih ihmore =>
    have first := ih fun t ht => genuine t (by simp [ht])
    have more := ihmore fun t ht => genuine t (by simp [ht])
    simp only [weight_append, Phrase.cost, Expr.costAll] at first more ⊢
    omega
  | noMore => exact Nat.le_refl _
  | more hcomma h hmore ih ihmore =>
    have first := ih fun t ht => genuine t (by simp [ht])
    have more := ihmore fun t ht => genuine t (by simp [ht])
    simp only [weight_cons, weight_append, Phrase.cost, Expr.costAll] at first more ⊢
    omega
  | constant h =>
    rw [Phrase.cost, cost_of_isConstant h]
    exact Nat.zero_le _
  | constantCall h hleft hright =>
    rw [Phrase.cost, cost_of_isConstant h]
    exact Nat.zero_le _
  | literal h =>
    have value := cost_literal (genuine _ List.mem_cons_self) h
    simpa [Phrase.cost] using value
  | @column scope t ht =>
    have name := sensitives_stripDelimiters t.lexeme
    simpa [Phrase.cost, Expr.cost] using name
  | @qualified scope t column ht hcolumn =>
    have table := nameCost_le (genuine _ List.mem_cons_self) ht
    have name := sensitives_stripDelimiters column.lexeme
    simp only [weight_cons, weight_nil, Phrase.cost, Expr.cost, Option.elim_some]
    omega
  | «variable» ht hbound => exact Nat.zero_le _
  | table ht hfree =>
    have name := nameCost_le (genuine _ List.mem_cons_self) ht
    simpa [Phrase.cost, Expr.cost] using name
  | group hleft h hright ih =>
    have inner := ih fun t ht => genuine t (by simp [ht])
    simp only [weight_cons, weight_append, Phrase.cost] at inner ⊢
    omega

/-! ## The written form -/

theorem sensitives_of_isWord {name : String} (word : isWord name = true) :
    sensitives name = 0 := by
  have letters : ['"', '\x27', '\\', '-'].all (fun c => !opensWord c && !isIdentPart c) = true := by
    decide
  have plain : ∀ c, opensWord c = true ∨ isIdentPart c = true → isSensitive c = false := by
    intro c letter
    cases sensitive : isSensitive c with
    | false => rfl
    | true =>
      have mem : c ∈ ['"', '\x27', '\\', '-'] := by
        simpa [isSensitive, or_assoc] using sensitive
      have no := List.all_eq_true.mp letters c mem
      rcases letter with letter | letter <;> simp [letter] at no
  unfold isWord at word
  split at word
  · next c cs chars =>
    obtain ⟨opens, parts⟩ := Bool.and_eq_true_iff.mp word
    rw [sensitives, chars, List.countP_eq_zero]
    intro d hd
    rw [plain d ?_]
    · exact Bool.false_ne_true
    · rcases List.mem_cons.mp hd with rfl | hd
      · exact .inl opens
      · exact .inr (List.all_eq_true.mp parts d hd)
  · cases word

/-- A word holds no blank. -/
theorem not_contains_space_of_isWord {name : String} (word : isWord name = true) :
    name.toList.contains ' ' = false := by
  have space : opensWord ' ' = false ∧ isIdentPart ' ' = false := by decide
  unfold isWord at word
  split at word
  · next c cs chars =>
    obtain ⟨opens, parts⟩ := Bool.and_eq_true_iff.mp word
    rw [chars, ← Bool.not_eq_true, List.contains_iff_mem]
    intro mem
    rcases List.mem_cons.mp mem with rfl | mem
    · rw [space.1] at opens
      cases opens
    · have part := List.all_eq_true.mp parts ' ' mem
      rw [space.2] at part
      cases part
  · cases word

theorem standsBetween_of_countP {mark : Char} {body : String}
    (h : body.toList.countP (fun c => c == mark || c == '\\') = 0) :
    standsBetween mark body = true := by
  rw [List.countP_eq_zero] at h
  refine List.all_eq_true.mpr fun c hc => ?_
  have other := h c hc
  simpa [not_or] using other

/-- What is written of a table has no more of them than its name costs. -/
theorem sensitives_quoteTable (name : String) :
    sensitives (quoteTable name) ≤ nameCost name ∧
      (nameCost name ≤ sensitives (quoteTable name) → isPlainTable name = true) := by
  have mark : sensitives "'" = 1 := by decide
  unfold quoteTable nameCost isPlainTable
  cases spaced : name.toList.contains ' ' with
  | true =>
    have notWord : ¬isNameWord name = true := fun word => by
      have single := not_contains_space_of_isWord (Bool.and_eq_true_iff.mp word).1
      rw [spaced] at single
      cases single
    rw [if_pos rfl, if_neg notWord, if_pos rfl, quotedCost, sensitives_append, sensitives_append,
      mark]
    exact ⟨by omega, fun all => standsBetween_of_countP (by omega)⟩
  | false =>
    rw [if_neg Bool.false_ne_true, if_neg Bool.false_ne_true]
    cases word : isNameWord name with
    | true =>
      rw [if_pos rfl, sensitives_of_isWord (Bool.and_eq_true_iff.mp word).1]
      exact ⟨Nat.le_refl _, fun _ => rfl⟩
    | false =>
      rw [if_neg Bool.false_ne_true, quotedCost]
      exact ⟨by omega, fun all => by omega⟩

/-- The same for the name of a call, which is never quoted. -/
theorem sensitives_callee (name : String) :
    sensitives name ≤ calleeCost name ∧
      (calleeCost name ≤ sensitives name → isCalleeWord name = true) := by
  unfold calleeCost
  cases word : isCalleeWord name with
  | true =>
    rw [if_pos rfl, sensitives_of_isWord (Bool.and_eq_true_iff.mp word).1]
    exact ⟨Nat.le_refl _, fun _ => rfl⟩
  | false =>
    rw [if_neg Bool.false_ne_true, quotedCost]
    exact ⟨by omega, fun all => by omega⟩

theorem countP_digits {cs : List Char} (all : ∀ c ∈ cs, c.isDigit = true) :
    cs.countP isSensitive = 0 := by
  refine List.countP_eq_zero.mpr fun c hc sensitive => ?_
  have mem : c ∈ ['"', '\x27', '\\', '-'] := by
    simpa [isSensitive, or_assoc] using sensitive
  have no : ['"', '\x27', '\\', '-'].all (!Char.isDigit ·) = true := by decide
  have digit := List.all_eq_true.mp no c mem
  rw [all c hc] at digit
  cases digit

/-- A float is written for nothing. -/
theorem sensitives_float {m : Nat} {e : Int} (canonical : Double.Canonical m e) :
    sensitives ((Double.finite false m e).write .plain) = 0 := by
  cases whole : Double.wholeValue? m e with
  | some n =>
    obtain ⟨digits, text, -, all, -, -⟩ := Double.write_plain_whole canonical whole
    rw [text, sensitives, String.toList_ofList, countP_digits all]
  | none =>
    obtain ⟨whole', fraction, text, -, all, -, all', -⟩ :=
      Double.write_plain_fraction canonical whole
    have point : isSensitive '.' = false := by decide
    rw [text, sensitives, String.toList_ofList, List.countP_append, List.countP_cons,
      countP_digits all, countP_digits all', point]
    rfl

theorem sensitives_displayAll {es : List Expr}
    (h : ∀ e ∈ es, sensitives e.display ≤ e.cost ∧
      (e.cost ≤ sensitives e.display → e.everywhere Expr.plainNames = true)) :
    ((Expr.displayAll es).map sensitives).sum ≤ Expr.costAll es ∧
      (Expr.costAll es ≤ ((Expr.displayAll es).map sensitives).sum →
        Expr.everywhereAll Expr.plainNames es = true) := by
  induction es with
  | nil => exact ⟨Nat.le_refl _, fun _ => rfl⟩
  | cons e es ih =>
    obtain ⟨le, plain⟩ := h e (by simp)
    obtain ⟨les, plains⟩ := ih fun e he => h e (List.mem_cons_of_mem _ he)
    simp only [Expr.displayAll, Expr.costAll, List.map_cons, List.sum_cons, Expr.everywhereAll,
      Bool.and_eq_true]
    exact ⟨by omega, fun all => ⟨plain (by omega), plains (by omega)⟩⟩

/-- What is written of a call. -/
theorem sensitives_call (name : String) (texts : List String) :
    sensitives (name ++ "(" ++ ", ".intercalate texts ++ ")") =
      sensitives name + (texts.map sensitives).sum := by
  have marks : sensitives "(" = 0 ∧ sensitives ")" = 0 := by decide
  simp [sensitives_intercalate, marks.1, marks.2]

/-- **The written form has no more of them than the tree costs**, and just as many only if names
are plain. -/
theorem sensitives_display {e : Expr} (he : e.IsSourced) :
    sensitives e.display ≤ e.cost ∧
      (e.cost ≤ sensitives e.display → e.everywhere Expr.plainNames = true) := by
  induction he with
  | @integer n nonnegative fits =>
    have nothing : sensitives (Expr.literal (.integer n)).display = 0 := by
      rw [Expr.display, Literal.display, toString_of_nonneg nonnegative, sensitives,
        String.toList_ofList, countP_digits fun c => isDigit_of_mem_toDigits]
    exact ⟨nothing.le, fun _ => rfl⟩
  | float canonical => exact ⟨(sensitives_float canonical).le, fun _ => rfl⟩
  | infinite => exact ⟨by decide, fun _ => rfl⟩
  | text body =>
    have mark : sensitives "\"" = 1 := by decide
    simp only [Expr.display, Literal.display, Expr.cost, quotedCost, sensitives_append, mark]
    exact ⟨by omega, fun all => standsBetween_of_countP (by omega)⟩
  | boolean b =>
    have nothing : sensitives (Expr.literal (.boolean b)).display = 0 := by
      cases b <;> decide
    exact ⟨nothing.le, fun _ => rfl⟩
  | blank => exact ⟨by decide, fun _ => rfl⟩
  | @column table name nonempty closed =>
    have brackets : sensitives "[" = 0 ∧ sensitives "]" = 0 := by decide
    cases table with
    | none =>
      simp only [Expr.display, ColumnRef.qualifiedName, sensitives_append, brackets.1, brackets.2,
        Expr.cost, Option.elim_none]
      exact ⟨by omega, fun _ => rfl⟩
    | some table =>
      obtain ⟨le, plain⟩ := sensitives_quoteTable table
      simp only [Expr.display, ColumnRef.qualifiedName, sensitives_append, brackets.1, brackets.2,
        Expr.cost, Option.elim_some]
      exact ⟨by omega, fun all => plain (by omega)⟩
  | table name => exact sensitives_quoteTable name
  | @call name args hname hargs ih =>
    obtain ⟨le, plain⟩ := sensitives_callee name
    obtain ⟨les, plains⟩ := sensitives_displayAll ih
    simp only [Expr.display, sensitives_call, Expr.cost, Expr.everywhere, Bool.and_eq_true]
    exact ⟨by omega, fun all => ⟨plain (by omega), plains (by omega)⟩⟩
  | @binary l r op hl hr ihl ihr =>
    obtain ⟨lel, plainl⟩ := ihl
    obtain ⟨ler, plainr⟩ := ihr
    have marks : sensitives "(" = 0 ∧ sensitives " " = 0 ∧ sensitives ")" = 0 := by decide
    simp only [Expr.display, sensitives_append, marks.1, marks.2.1, marks.2.2, Expr.cost,
      Expr.everywhere, Bool.and_eq_true]
    exact ⟨by omega, fun all => ⟨⟨rfl, plainl (by omega)⟩, plainr (by omega)⟩⟩
  | @unary e op he ih =>
    obtain ⟨le, plain⟩ := ih
    have marks : sensitives "-" = 1 ∧ sensitives "NOT " = 0 := by decide
    cases op with
    | negate =>
      simp only [Expr.display, sensitives_append, marks.1, Expr.cost, Expr.everywhere,
        Bool.and_eq_true]
      exact ⟨by omega, fun all => ⟨rfl, plain (by omega)⟩⟩
    | not =>
      simp only [Expr.display, sensitives_append, marks.2, Expr.cost, Expr.everywhere,
        Bool.and_eq_true]
      exact ⟨by omega, fun all => ⟨rfl, plain (by omega)⟩⟩
  | @ifThen c t hc ht ihc iht =>
    obtain ⟨lec, plainc⟩ := ihc
    obtain ⟨leThen, plaint⟩ := iht
    have name : sensitives "IF" = 0 := by decide
    rw [display_ifThen, sensitives_call, name]
    simp only [Expr.displayAll, List.map_cons, List.map_nil, List.sum_cons, List.sum_nil, Expr.cost,
      Expr.everywhere, Expr.everywhereOpt, Bool.and_eq_true]
    exact ⟨by omega, fun all => ⟨⟨⟨rfl, plainc (by omega)⟩, plaint (by omega)⟩, trivial⟩⟩
  | @ifThenElse c t e hc ht he ihc iht ihe =>
    obtain ⟨lec, plainc⟩ := ihc
    obtain ⟨leThen, plaint⟩ := iht
    obtain ⟨lee, plaine⟩ := ihe
    have name : sensitives "IF" = 0 := by decide
    rw [display_ifThenElse, sensitives_call, name]
    simp only [Expr.displayAll, List.map_cons, List.map_nil, List.sum_cons, List.sum_nil, Expr.cost,
      Expr.everywhere, Expr.everywhereOpt, Bool.and_eq_true]
    exact ⟨by omega, fun all => ⟨⟨⟨rfl, plainc (by omega)⟩, plaint (by omega)⟩, plaine (by omega)⟩⟩

end MeasureSql.Dax
