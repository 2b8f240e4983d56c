import MeasureSql.Proofs.Dax.Redisplay
import MeasureSql.Proofs.Dax.Sensitive

/-!
# What keeps a written form from being read

Two minus signs side by side begin a comment, which swallows both of them, and no exponent begins
with a sign.  The first is found where the text is cut, the second in the words.

## Main definitions

* `MeetsComment` — a text is cut off up to two minus signs.
* `Stuck` — a caret stands before a sign.

## Main results

* `weight_of_meetsComment` — the words of such a text miss two minus signs.
* `not_derives_of_stuck` — such words derive nothing.
* `meetsComment_display`, `stuck_words` — the trees that are written so.
-/

namespace MeasureSql.Dax

open Text

/-! ## Comments -/

/-- A text is cut off up to two minus signs side by side. -/
def MeetsComment (text : String) : Prop :=
  ∃ front ws back, text.toList = front ++ '-' :: '-' :: back ∧
    ∀ rest, CutsOff (front ++ '-' :: rest) ws ('-' :: rest)

theorem MeetsComment.before {text : String} (h : MeetsComment text) (tail : String) :
    MeetsComment (text ++ tail) := by
  obtain ⟨front, ws, back, chars, cut⟩ := h
  exact ⟨front, ws, back ++ tail.toList, by simp [chars], cut⟩

theorem MeetsComment.after {text start : String} {ws : List Word} (h : MeetsComment text)
    (off : ∀ rest, CutsOff (start.toList ++ rest) ws rest) : MeetsComment (start ++ text) := by
  obtain ⟨front, ws', back, chars, cut⟩ := h
  refine ⟨start.toList ++ front, ws ++ ws', back, by simp [chars], fun rest => ?_⟩
  rw [List.append_assoc]
  exact (off _).trans (cut rest)

/-- A single minus sign in front. -/
theorem MeetsComment.minus {text : String} (h : MeetsComment text)
    (single : text.toList.head? ≠ some '-') : MeetsComment ("-" ++ text) := by
  obtain ⟨front, ws, back, chars, cut⟩ := h
  refine ⟨'-' :: front, (.minus, "-") :: ws, back, by simp [chars], fun rest => ?_⟩
  have single' : (front ++ '-' :: rest).head? ≠ some '-' := by
    rw [chars] at single
    cases front with
    | nil => exact absurd rfl single
    | cons c front => exact single
  exact (cutsOff_minus single').trans (cut rest)

theorem meetsComment_double (text : String) : MeetsComment ("-" ++ ("-" ++ text)) :=
  ⟨[], [], text.toList, by simp, fun rest => .refl _⟩

/-- **The words of a text with a comment miss two minus signs.** -/
theorem weight_of_meetsComment {text : String} (h : MeetsComment text) {ws : List Word}
    (cut : Cuts text.toList ws) : weight (ws.map Word.token) + 2 ≤ sensitives text := by
  obtain ⟨front, ws', back, chars, off⟩ := h
  have minus : isSensitive '-' = true := by decide
  have comment : nextTrivia? ('-' :: '-' :: back) =
      some ((Scan.takeWhile (· != '\n') back).after ['-', '-']) := by
    simp [nextTrivia?, Scan.takeWhile, isBlank, scanComment?]
  rw [chars] at cut
  obtain ⟨more, rfl, later⟩ := (off _ _).mp cut
  obtain ⟨more', rfl, last⟩ := (cutsOff_trivia comment _).mp later
  have behind := weight_le_of_cuts last
  have rest : (back.dropWhile (· != '\n')).countP isSensitive ≤ back.countP isSensitive :=
    (List.dropWhile_sublist _).countP_le
  have single : CutsOff (front ++ ['-']) ws' ['-'] := off []
  have word : Cuts ['-'] [(.minus, "-")] := (cutsOff_minus (by simp)).cuts .done
  have ahead := weight_le_of_cuts (single.cuts word)
  have text' : sensitives text = front.countP isSensitive + (2 + back.countP isSensitive) := by
    rw [sensitives, chars, List.countP_append, List.countP_cons, List.countP_cons, minus]
    simp
    omega
  have one : sensitives (Word.token (.minus, "-")).lexeme = 1 := by decide
  simp only [Scan.after, Scan.takeWhile, List.map_append, weight_append,
    List.map_cons, List.map_nil, weight_cons, weight_nil, one, List.countP_append, List.countP_cons,
    List.countP_nil, minus, if_true] at behind ahead ⊢
  omega

/-- The arguments of a call, one of which has a comment. -/
theorem meetsComment_arguments {es : List Expr} (writes : ∀ e ∈ es,
      e.everywhere Expr.singleMinuses = true → Writes e.display e.words)
    (meets : ∀ e ∈ es, e.everywhere Expr.singleMinuses = false → MeetsComment e.display)
    (double : Expr.everywhereAll Expr.singleMinuses es = false) :
    MeetsComment (", ".intercalate (Expr.displayAll es)) := by
  induction es with
  | nil => cases double
  | cons e es ih =>
    cases first : e.everywhere Expr.singleMinuses with
    | false =>
      have comment := meets e (by simp) first
      cases es with
      | nil =>
        rw [Expr.displayAll, Expr.displayAll, String.intercalate_singleton]
        exact comment
      | cons e' es =>
        rw [Expr.displayAll, Expr.displayAll, String.intercalate_cons_cons, String.append_assoc]
        exact comment.before _
    | true =>
      rw [Expr.everywhereAll, first, Bool.true_and] at double
      have later := ih (fun e he => writes e (List.mem_cons_of_mem _ he))
        (fun e he => meets e (List.mem_cons_of_mem _ he)) double
      cases es with
      | nil => cases double
      | cons e' es =>
        have off : ∀ rest, CutsOff ((e.display ++ ", ").toList ++ rest)
            (e.words ++ [(.comma, ",")]) rest := by
          intro rest
          have comma := (cutsOff_comma (' ' :: rest)).trans (cutsOff_space rest)
          have whole := (writes e (by simp) first _ (by simp [delimiters])).trans comma
          simpa using whole
        rw [Expr.displayAll, Expr.displayAll, String.intercalate_cons_cons]
        exact later.after off

theorem meetsComment_call {name : String} (word : isWord name = true) {text : String}
    (h : MeetsComment text) : MeetsComment (name ++ "(" ++ text ++ ")") := by
  have off : ∀ rest, CutsOff ((name ++ "(").toList ++ rest)
      ([(.ofWord name, name)] ++ [(.lParen, "(")]) rest := by
    intro rest
    have whole := (writes_word word ('(' :: rest) (by simp [delimiters])).trans
      (cutsOff_leftParen rest)
    simpa using whole
  exact (h.after off).before ")"

/-- The operands of an operation, one of which has a comment. -/
theorem meetsComment_operands {l r : Expr} (op : BinaryOp)
    (h : MeetsComment l.display ∨ Writes l.display l.words ∧ MeetsComment r.display) :
    MeetsComment (l.display ++ (" " ++ op.symbol ++ " " ++ r.display)) := by
  rcases h with left | ⟨left, right⟩
  · exact left.before _
  · have off : ∀ rest, CutsOff ((l.display ++ (" " ++ op.symbol ++ " ")).toList ++ rest)
        (l.words ++ [op.word]) rest := by
      intro rest
      have operator := (cutsOff_space _).trans
        ((cutsOff_operator op rest).trans (cutsOff_space rest))
      have whole := (left _ (by simp [delimiters])).trans operator
      simpa using whole
    have text := right.after off
    rwa [String.append_assoc] at text

/-- **A minus sign next to another begins a comment** in the written form. -/
theorem meetsComment_display {e : Expr} (he : e.IsSourced)
    (plain : e.everywhere Expr.plainNames = true)
    (double : e.everywhere Expr.singleMinuses = false) : MeetsComment e.display := by
  induction he with
  | @call name args hname hargs ih =>
    simp only [Expr.everywhere, Bool.and_eq_true, Expr.everywhereAll_eq_true] at plain
    have single : (Expr.call name args).singleMinuses = true := rfl
    rw [Expr.everywhere, single, Bool.true_and] at double
    rw [Expr.display]
    refine meetsComment_call (Bool.and_eq_true_iff.mp plain.1).1 ?_
    exact meetsComment_arguments (fun e he => writes_display (hargs e he) (plain.2 e he))
      (fun e he => ih e he (plain.2 e he)) double
  | @binary l r op hl hr ihl ihr =>
    simp only [Expr.everywhere, Bool.and_eq_true] at plain
    have single : (Expr.binary l op r).singleMinuses = true := rfl
    rw [Expr.everywhere, single, Bool.true_and] at double
    have inner : MeetsComment (l.display ++ (" " ++ op.symbol ++ " " ++ r.display)) := by
      refine meetsComment_operands op ?_
      cases left : l.everywhere Expr.singleMinuses with
      | false => exact .inl (ihl plain.1.2 left)
      | true =>
        rw [left, Bool.true_and] at double
        exact .inr ⟨writes_display hl plain.1.2 left, ihr plain.2 double⟩
    have off : ∀ rest, CutsOff ("(".toList ++ rest) [(.lParen, "(")] rest := cutsOff_leftParen
    have whole := (inner.after off).before ")"
    have text : "(" ++ (l.display ++ (" " ++ op.symbol ++ " " ++ r.display)) ++ ")" =
        (Expr.binary l op r).display := by
      simp only [Expr.display, String.append_assoc]
    rwa [text] at whole
  | @unary e op he ih =>
    simp only [Expr.everywhere, Bool.and_eq_true] at plain
    cases op with
    | negate =>
      by_cases next : ∃ e', e = .unary .negate e'
      · obtain ⟨e', rfl⟩ := next
        exact meetsComment_double _
      · have single : (Expr.unary .negate e).singleMinuses = true := by
          cases e with
          | unary op e' =>
            cases op with
            | negate => exact absurd ⟨e', rfl⟩ next
            | not => rfl
          | _ => rfl
        rw [Expr.everywhere, single, Bool.true_and] at double
        refine (ih plain.2 double).minus (head?_display he (Expr.self_of_everywhere plain.2) ?_)
        exact fun e' same => next ⟨e', same⟩
    | not =>
      have single : (Expr.unary .not e).singleMinuses = true := rfl
      rw [Expr.everywhere, single, Bool.true_and] at double
      have word : isWord "NOT" = true := by decide
      have off : ∀ rest, CutsOff ("NOT ".toList ++ rest) ([(.ofWord "NOT", "NOT")] ++ []) rest :=
        fun rest => (writes_word word (' ' :: rest) (by simp [delimiters])).trans
          (cutsOff_space rest)
      exact (ih plain.2 double).after off
  | @ifThen c t hc ht ihc iht =>
    simp only [Expr.everywhere, Expr.everywhereOpt, Bool.and_eq_true] at plain
    have single : (Expr.cond c t none).singleMinuses = true := rfl
    have double' : Expr.everywhereAll Expr.singleMinuses [c, t] = false := by
      simpa [Expr.everywhere, Expr.everywhereOpt, Expr.everywhereAll, single] using double
    rw [display_ifThen]
    refine meetsComment_call (by decide) (meetsComment_arguments ?_ ?_ double')
    · simp only [List.forall_mem_cons]
      exact ⟨writes_display hc plain.1.1.2, writes_display ht plain.1.2, List.forall_mem_nil _⟩
    · simp only [List.forall_mem_cons]
      exact ⟨ihc plain.1.1.2, iht plain.1.2, List.forall_mem_nil _⟩
  | @ifThenElse c t e hc ht he ihc iht ihe =>
    simp only [Expr.everywhere, Expr.everywhereOpt, Bool.and_eq_true] at plain
    have single : (Expr.cond c t (some e)).singleMinuses = true := rfl
    have double' : Expr.everywhereAll Expr.singleMinuses [c, t, e] = false := by
      simpa [Expr.everywhere, Expr.everywhereOpt, Expr.everywhereAll, single] using double
    rw [display_ifThenElse]
    refine meetsComment_call (by decide) (meetsComment_arguments ?_ ?_ double')
    · simp only [List.forall_mem_cons]
      exact ⟨writes_display hc plain.1.1.2, writes_display ht plain.1.2, writes_display he plain.2,
        List.forall_mem_nil _⟩
    · simp only [List.forall_mem_cons]
      exact ⟨ihc plain.1.1.2, iht plain.1.2, ihe plain.2, List.forall_mem_nil _⟩
  | _ => cases double

/-! ## Exponents -/

/-- Can a power begin with these tokens? -/
def opensPower : List Token → Bool
  | [] => false
  | t :: rest => t.kind != .minus && (t.kind != .not || nextIs .lParen rest)

/-- After every caret a power can begin. -/
def caretsOpen : List Token → Bool
  | [] => true
  | t :: rest => (t.kind != .caret || opensPower rest) && caretsOpen rest

theorem caretsOpen_cons {t : Token} (other : t.kind ≠ .caret) (seg : List Token) :
    caretsOpen (t :: seg) = caretsOpen seg := by
  simp [caretsOpen, other]

theorem opensPower_append {seg : List Token} (h : opensPower seg = true) (seg' : List Token) :
    opensPower (seg ++ seg') = true := by
  cases seg with
  | nil => cases h
  | cons t seg =>
    simp only [opensPower, List.cons_append, Bool.and_eq_true, Bool.or_eq_true] at h ⊢
    refine ⟨h.1, h.2.imp_right fun next => ?_⟩
    cases seg with
    | nil => cases next
    | cons u seg => exact next

theorem caretsOpen_append {seg seg' : List Token} (h : caretsOpen seg = true)
    (h' : caretsOpen seg' = true) : caretsOpen (seg ++ seg') = true := by
  induction seg with
  | nil => exact h'
  | cons t seg ih =>
    simp only [caretsOpen, List.cons_append, Bool.and_eq_true, Bool.or_eq_true] at h ⊢
    exact ⟨h.1.imp_right fun opens => opensPower_append opens seg', ih h.2⟩

theorem caretsOpen_of_append {seg seg' : List Token} (h : caretsOpen (seg ++ seg') = true) :
    caretsOpen seg' = true := by
  induction seg with
  | nil => exact h
  | cons t seg ih =>
    rw [List.cons_append, caretsOpen, Bool.and_eq_true] at h
    exact ih h.2

/-- A token that is no operator. -/
theorem caretsOpen_single {t : Token} (other : t.kind ≠ .caret) : caretsOpen [t] = true :=
  caretsOpen_cons other []

theorem opensPower_of_opening {seg : List Token} {e : Expr} (h : Opening (.power e) seg) :
    opensPower seg = true := by
  obtain ⟨t, ts, rfl, opens | ⟨word, next⟩⟩ := h
  · revert opens
    rw [opensPower]
    cases t.kind <;> simp [TokenKind.opensPrimary]
  · revert word
    rw [opensPower, next, Token.isOperatorWord]
    cases t.kind <;> simp

theorem kind_ne_caret_of_joinsAt {t : Token} {op : BinaryOp} {n : Nat} (h : JoinsAt t.kind op n) :
    t.kind ≠ .caret := by
  intro caret
  rw [caret] at h
  cases h

theorem kind_ne_caret_of_opensPrimary {t : Token} (h : t.kind.opensPrimary = true) :
    t.kind ≠ .caret := by
  intro caret
  rw [caret] at h
  cases h

/-- **No exponent begins with a sign.** -/
theorem Derives.caretsOpen {scope : Scope} {seg : List Token} {phrase : Phrase}
    (h : Derives scope seg phrase) : caretsOpen seg = true := by
  have single : ∀ {k} {t : Token}, t.kind = k → k ≠ .caret → t.kind ≠ .caret :=
    fun ht other caret => other (ht.symm.trans caret)
  induction h with
  | bind hvar hname heq hvalue hrest ihvalue ihrest =>
    rw [caretsOpen_cons (single hvar (by decide)), caretsOpen_cons (single hname (by decide)),
      caretsOpen_cons (single heq (by decide))]
    exact caretsOpen_append ihvalue ihrest
  | returned hword h ih => rwa [caretsOpen_cons (single hword (by decide))]
  | join hl hop hr ihl ihr =>
    exact caretsOpen_append ihl (by rwa [caretsOpen_cons (kind_ne_caret_of_joinsAt hop)])
  | negate ht h ih => rwa [caretsOpen_cons (single ht (by decide))]
  | not ht hnext h ih => rwa [caretsOpen_cons (single ht (by decide))]
  | raise hbase ht hexponent ihbase ihexponent =>
    have opens := opensPower_of_opening hexponent.opening
    exact caretsOpen_append ihbase (by simp [Dax.caretsOpen, opens, ihexponent])
  | apply hcallee hleft hargs hright happlied ihcallee ihargs =>
    refine caretsOpen_append ihcallee ?_
    rw [caretsOpen_cons (single hleft (by decide))]
    exact caretsOpen_append ihargs (caretsOpen_single (single hright (by decide)))
  | namedFunction ht => exact caretsOpen_single (single ht (by decide))
  | @operatorWord scope t ht =>
    refine caretsOpen_single fun caret => ?_
    rw [Token.isOperatorWord, caret] at ht
    cases ht
  | noArguments => rfl
  | someArguments h hmore ih ihmore => exact caretsOpen_append ih ihmore
  | noMore => rfl
  | more hcomma h hmore ih ihmore =>
    rw [caretsOpen_cons (single hcomma (by decide))]
    exact caretsOpen_append ih ihmore
  | constant h =>
    exact caretsOpen_single (kind_ne_caret_of_opensPrimary (opensPrimary_of_isConstant h))
  | constantCall h hleft hright =>
    rw [caretsOpen_cons (kind_ne_caret_of_opensPrimary (opensPrimary_of_isConstant h)),
      caretsOpen_cons (single hleft (by decide))]
    exact caretsOpen_single (single hright (by decide))
  | literal h =>
    refine caretsOpen_single ?_
    cases h with
    | integer hkind hread => exact single hkind (by decide)
    | float hkind hread => exact single hkind (by decide)
    | string hkind => exact single hkind (by decide)
  | column ht => exact caretsOpen_single (single ht (by decide))
  | qualified ht hcolumn =>
    rw [caretsOpen_cons (kind_ne_caret_of_opensPrimary (opensPrimary_of_isName ht))]
    exact caretsOpen_single (single hcolumn (by decide))
  | «variable» ht hbound => exact caretsOpen_single (single ht (by decide))
  | table ht hfree =>
    exact caretsOpen_single (kind_ne_caret_of_opensPrimary (opensPrimary_of_isName ht))
  | group hleft h hright ih =>
    rw [caretsOpen_cons (single hleft (by decide))]
    exact caretsOpen_append ih (caretsOpen_single (single hright (by decide)))
  | _ => assumption

/-- Words begin with a sign. -/
def opensSigned : List Word → Bool
  | w :: w' :: _ => w.1 == .minus || w.1 == .not && w'.1 != .lParen
  | _ => false

/-- A caret stands before a sign. -/
def Stuck (ws : List Word) : Prop :=
  ∃ front back, ws = front ++ BinaryOp.power.word :: back ∧ opensSigned back = true

theorem opensSigned_append {ws : List Word} (h : opensSigned ws = true) (ws' : List Word) :
    opensSigned (ws ++ ws') = true := by
  match ws, h with
  | _ :: _ :: _, h => exact h

theorem Stuck.within {ws : List Word} (h : Stuck ws) (before after : List Word) :
    Stuck (before ++ (ws ++ after)) := by
  obtain ⟨front, back, rfl, signed⟩ := h
  exact ⟨before ++ front, back ++ after, by simp, opensSigned_append signed after⟩

/-- **Words with a caret before a sign derive nothing.** -/
theorem not_derives_of_stuck {ws : List Word} (h : Stuck ws) {phrase : Phrase} :
    ¬Says ws phrase := by
  obtain ⟨front, back, rfl, signed⟩ := h
  intro derived
  have opens := Derives.caretsOpen derived
  rw [List.map_append, List.map_cons] at opens
  have after := caretsOpen_of_append opens
  have caret : BinaryOp.power.word.1 = .caret := rfl
  match back, signed with
  | w :: w' :: back, signed =>
    simp only [caretsOpen, opensPower, List.map_cons, nextIs, Word.token, Bool.and_eq_true,
      bne_iff_ne, ne_eq, Bool.or_eq_true, beq_iff_eq] at after
    simp only [opensSigned, Bool.or_eq_true, beq_iff_eq, Bool.and_eq_true, bne_iff_ne, ne_eq]
      at signed
    tauto

theorem exists_words {e : Expr} (he : e.IsSourced) : ∃ w ws, e.words = w :: ws := by
  cases he with
  | boolean b => cases b <;> exact ⟨_, _, rfl⟩
  | @column table name nonempty closed => cases table <;> exact ⟨_, _, rfl⟩
  | unary op he => cases op <;> exact ⟨_, _, rfl⟩
  | _ => exact ⟨_, _, rfl⟩

/-- An operand with signs is written with a sign in front. -/
theorem opensSigned_words {r : Expr} (hr : r.IsSourced) (signed : r.signs ≠ 0) :
    opensSigned r.words = true := by
  cases hr with
  | @unary e op he =>
    obtain ⟨w, ws, words⟩ := exists_words he
    cases op with
    | negate => rw [Expr.words, words]; rfl
    | not =>
      cases binary : e.isBinary with
      | true => exact absurd (if_pos binary) signed
      | false =>
        have next := nextIs_words he []
        rw [binary, words] at next
        have other : (w.1 == .lParen) = false := next
        rw [Expr.words, words, opensSigned]
        simp [other, bne]
  | _ => exact absurd rfl signed

/-- The arguments of a call, one of which is stuck. -/
theorem stuck_arguments {es : List Expr}
    (stuck : ∀ e ∈ es, e.everywhere Expr.bareExponents = false → Stuck e.words)
    (signed : Expr.everywhereAll Expr.bareExponents es = false) :
    Stuck (separated (Expr.wordsAll es)) := by
  have further : ∀ es : List Expr,
      (∀ e ∈ es, e.everywhere Expr.bareExponents = false → Stuck e.words) →
      Expr.everywhereAll Expr.bareExponents es = false →
      Stuck (furtherWords (Expr.wordsAll es)) := by
    intro es stuck signed
    induction es with
    | nil => cases signed
    | cons e es ih =>
      cases first : e.everywhere Expr.bareExponents with
      | false => exact (stuck e (by simp) first).within [(.comma, ",")] _
      | true =>
        rw [Expr.everywhereAll, first, Bool.true_and] at signed
        have later := ih (fun e he => stuck e (List.mem_cons_of_mem _ he)) signed
        have whole := later.within ((.comma, ",") :: e.words) []
        simpa [Expr.wordsAll, furtherWords] using whole
  cases es with
  | nil => cases signed
  | cons e es =>
    cases first : e.everywhere Expr.bareExponents with
    | false => exact (stuck e (by simp) first).within [] _
    | true =>
      rw [Expr.everywhereAll, first, Bool.true_and] at signed
      have later := further es (fun e he => stuck e (List.mem_cons_of_mem _ he)) signed
      have whole := later.within e.words []
      simpa [Expr.wordsAll, separated] using whole

theorem stuck_call (name : String) {args : List (List Word)} (h : Stuck (separated args)) :
    Stuck (callWords name args) :=
  h.within [(.ofWord name, name), (.lParen, "(")] [(.rParen, ")")]

/-- **An exponent with a sign is stuck** in the written form. -/
theorem stuck_words {e : Expr} (he : e.IsSourced)
    (signed : e.everywhere Expr.bareExponents = false) : Stuck e.words := by
  induction he with
  | @call name args hname hargs ih =>
    have bare : (Expr.call name args).bareExponents = true := rfl
    rw [Expr.everywhere, bare, Bool.true_and] at signed
    exact stuck_call name (stuck_arguments ih signed)
  | @binary l r op hl hr ihl ihr =>
    rw [Expr.everywhere, Bool.and_eq_false_iff, Bool.and_eq_false_iff] at signed
    rcases signed with (here | left) | right
    · have hpower : op = .power ∧ r.signs ≠ 0 := by
        cases op with
        | power => exact ⟨rfl, by simpa [Expr.bareExponents] using here⟩
        | _ => cases here
      obtain ⟨rfl, signs⟩ := hpower
      refine ⟨(.lParen, "(") :: l.words, r.words ++ [(.rParen, ")")], ?_,
        opensSigned_append (opensSigned_words hr signs) _⟩
      simp [Expr.words, enclosed, joined]
    · have whole := (ihl left).within [(.lParen, "(")] (op.word :: r.words ++ [(.rParen, ")")])
      simpa [Expr.words, enclosed, joined] using whole
    · have whole := (ihr right).within ((.lParen, "(") :: l.words ++ [op.word]) [(.rParen, ")")]
      simpa [Expr.words, enclosed, joined] using whole
  | @unary e op he ih =>
    have bare : (Expr.unary op e).bareExponents = true := rfl
    rw [Expr.everywhere, bare, Bool.true_and] at signed
    cases op with
    | negate => simpa [Expr.words] using (ih signed).within [(.minus, "-")] []
    | not => simpa [Expr.words] using (ih signed).within [(.not, "NOT")] []
  | @ifThen c t hc ht ihc iht =>
    have bare : (Expr.cond c t none).bareExponents = true := rfl
    have signed' : Expr.everywhereAll Expr.bareExponents [c, t] = false := by
      simpa [Expr.everywhere, Expr.everywhereOpt, Expr.everywhereAll, bare] using signed
    refine stuck_call "IF" (stuck_arguments ?_ signed')
    simp only [List.forall_mem_cons]
    exact ⟨ihc, iht, List.forall_mem_nil _⟩
  | @ifThenElse c t e hc ht he ihc iht ihe =>
    have bare : (Expr.cond c t (some e)).bareExponents = true := rfl
    have signed' : Expr.everywhereAll Expr.bareExponents [c, t, e] = false := by
      simpa [Expr.everywhere, Expr.everywhereOpt, Expr.everywhereAll, bare] using signed
    refine stuck_call "IF" (stuck_arguments ?_ signed')
    simp only [List.forall_mem_cons]
    exact ⟨ihc, iht, ihe, List.forall_mem_nil _⟩
  | _ => cases signed

end MeasureSql.Dax
