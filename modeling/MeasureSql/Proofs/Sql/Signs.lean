import MeasureSql.Proofs.Sql.Parentheses
import MeasureSql.Text.Alphabetic
import MeasureSql.Text.Blank
import MeasureSql.Text.CaseMap

/-!
# SQL text and its tokens

The text of an expression is cut into tokens from left to right.  Letters, digits and what stands in
quotes make up operands and words; blanks separate, and marks stand for themselves.  The sign in an
exponent belongs to its number, and two minus signs begin a comment, which no expression has.

## Main definitions

* `signs?` — the tokens of a text.
* `Tree.text` — the text of a tree, written with the blanks that are usual.
* `isOperand` — is a text one operand?
* `readText` — how a text groups.

## Main results

* `signs?_text` — the text of a tree has the tokens of the tree.
* `readText_text_iff` — the text of a tree is read as its grouping exactly when it is ordered.
* `isOperand_of_readText` — what is read consists of operands.
-/

namespace MeasureSql.Sql.Reading

/-- The characters of names and numbers. -/
def isOperandChar (c : Char) : Bool :=
  c.isAlphanum || c == '_' || c == '.' || c == '$' || Text.isAlphabetic c

/-- The quote that closes what a quote opens. -/
def closing? : Char → Option Char
  | '\x27' => some '\x27'
  | '"' => some '"'
  | '\x60' => some '\x60'
  | '[' => some ']'
  | _ => none

/-- Where in a text one is; a run of characters is kept with its last one first. -/
inductive Mode where
  | between
  | word (run : List Char)
  | quoted (close : Char) (run : List Char)
  deriving DecidableEq, Repr

/-- The run of characters that is not finished. -/
def Mode.run : Mode → List Char
  | .between => []
  | .word run => run
  | .quoted _ run => run

/-- Does a sign after the run belong to an exponent? -/
def awaitsExponent : List Char → Bool
  | e :: digits => (e == 'e' || e == 'E') && !digits.isEmpty
      && digits.all fun d => d.isDigit || d == '.'
  | [] => false

/-- A character that goes on with a run or begins one. -/
def absorb : Mode → Char → Option Mode
  | .quoted close run, c => some (if c = close then .word (c :: run) else .quoted close (c :: run))
  | .word run, c => match closing? c with
    | some close => some (.quoted close (c :: run))
    | none =>
      if isOperandChar c || ((c == '-' || c == '+') && awaitsExponent run) then
        some (.word (c :: run))
      else none
  | .between, c => match closing? c with
    | some close => some (.quoted close [c])
    | none => if isOperandChar c then some (.word [c]) else none

/-- The token of a run. -/
def wordSign (text : String) : Sign :=
  match Text.asciiUpper text with
  | "OR" => .infixed .or
  | "AND" => .infixed .and
  | "NOT" => .not
  | "IS" => .is
  | "CASE" => .case
  | "WHEN" => .when
  | "THEN" => .then
  | "ELSE" => .else
  | "END" => .end
  | "NULL" => .operand "NULL"
  | _ => .operand text

/-- The token of what is finished; an open quote is no token. -/
def flush : Mode → Option (List Sign)
  | .between => some []
  | .word run => some [wordSign (String.ofList run.reverse)]
  | .quoted _ _ => none

/-- The token of a single mark. -/
def markSign? : Char → Option Sign
  | '(' => some .left
  | ')' => some .right
  | ',' => some (.infixed .comma)
  | '+' => some (.infixed .add)
  | '-' => some (.infixed .sub)
  | '*' => some (.infixed .mul)
  | '/' => some (.infixed .div)
  | '=' => some (.infixed .eq)
  | '<' => some (.infixed .lt)
  | '>' => some (.infixed .gt)
  | _ => none

/-- The tokens of the rest of a text. -/
def signsFrom : Mode → List Char → Option (List Sign)
  | m, [] => flush m
  | m, c :: cs => match absorb m c with
    | some m' => signsFrom m' cs
    | none => match flush m with
      | none => none
      | some before => match c, cs with
        | '<', '>' :: cs => (signsFrom .between cs).map fun ts => before ++ .infixed .ne :: ts
        | '<', '=' :: cs => (signsFrom .between cs).map fun ts => before ++ .infixed .le :: ts
        | '>', '=' :: cs => (signsFrom .between cs).map fun ts => before ++ .infixed .ge :: ts
        | '-', '-' :: _ => none
        | '/', '*' :: _ => none
        | c, cs =>
          if Text.isBlank c then (signsFrom .between cs).map fun ts => before ++ ts
          else match markSign? c with
            | some t => (signsFrom .between cs).map fun ts => before ++ t :: ts
            | none => none

/-- **The tokens of a text**, if it has no comment, no open quote and no other marks. -/
def signs? (text : String) : Option (List Sign) :=
  signsFrom .between text.toList

/-- **How a text groups**, if it can be read. -/
def readText (text : String) : Option Tree :=
  (signs? text).bind grouping

example : readText "1 = 2 < a.b" =
    some (.binary (.binary (.operand "1") .eq (.operand "2")) .lt (.operand "a.b")) := by
  decide +kernel

/-! ## Operands -/

/-- Characters that go on with a run, one after the other. -/
def absorbAll (m : Mode) (cs : List Char) : Option Mode :=
  cs.foldlM absorb m

/-- Is a text one operand? -/
def isOperand (text : String) : Bool :=
  (match absorbAll .between text.toList with
    | some (.word _) => true
    | _ => false) && wordSign text == .operand text

theorem absorb_run {m m' : Mode} {c : Char} (h : absorb m c = some m') : m'.run = c :: m.run := by
  unfold absorb at h
  split at h
  · cases h
    split <;> rfl
  · split at h
    · cases h
      rfl
    · split at h
      · cases h
        rfl
      · cases h
  · split at h
    · cases h
      rfl
    · split at h
      · cases h
        rfl
      · cases h

theorem absorbAll_cons (m : Mode) (c : Char) (cs : List Char) :
    absorbAll m (c :: cs) = (absorb m c).bind (absorbAll · cs) :=
  List.foldlM_cons

theorem absorbAll_append (m : Mode) (xs ys : List Char) :
    absorbAll m (xs ++ ys) = (absorbAll m xs).bind (absorbAll · ys) :=
  List.foldlM_append

/-- The run that is kept is what was absorbed. -/
theorem absorbAll_run {m m' : Mode} {cs : List Char} (h : absorbAll m cs = some m') :
    m'.run = cs.reverse ++ m.run := by
  induction cs generalizing m with
  | nil =>
    cases h
    rfl
  | cons c cs ih =>
    rw [absorbAll_cons] at h
    obtain ⟨m₁, hc, hcs⟩ := Option.bind_eq_some_iff.mp h
    rw [ih hcs, absorb_run hc]
    simp

attribute [local simp] signsFrom

/-- Absorbed characters change nothing but where one is. -/
theorem signsFrom_absorbAll {m m' : Mode} {cs : List Char} (h : absorbAll m cs = some m')
    (rest : List Char) : signsFrom m (cs ++ rest) = signsFrom m' rest := by
  induction cs generalizing m with
  | nil =>
    cases h
    rfl
  | cons c cs ih =>
    rw [absorbAll_cons] at h
    obtain ⟨m₁, hc, hcs⟩ := Option.bind_eq_some_iff.mp h
    rw [List.cons_append, signsFrom]
    simp only [hc]
    exact ih hcs

/-- The characters that end a run. -/
def endsRun (c : Char) : Bool :=
  c == ' ' || c == '(' || c == ')' || c == ','

/-- What follows a run ends it. -/
def EndsRun (cs : List Char) : Prop :=
  ∀ c ∈ cs.head?, endsRun c = true

/-- A blank is passed over. -/
theorem signsFrom_blank (cs : List Char) :
    signsFrom .between (' ' :: cs) = signsFrom .between cs := by
  show (signsFrom .between cs).map (fun ts => [] ++ ts) = _
  simp

/-- A mark that ends a run stands for itself. -/
theorem signsFrom_mark {c : Char} {t : Sign} (hc : endsRun c = true) (ht : markSign? c = some t)
    (cs : List Char) : signsFrom .between (c :: cs) = (signsFrom .between cs).map (t :: ·) := by
  simp only [endsRun, Bool.or_eq_true, beq_iff_eq] at hc
  rcases hc with ((rfl | rfl) | rfl) | rfl
  · cases ht
  all_goals
    cases ht
    rfl

/-- A run that is ended is one token, before the tokens of the rest. -/
theorem signsFrom_word {rest : List Char} (hrest : EndsRun rest) (run : List Char) :
    signsFrom (.word run) rest = (signsFrom .between rest).map
      fun ts => wordSign (String.ofList run.reverse) :: ts := by
  cases rest with
  | nil => rfl
  | cons c cs =>
    have hc := hrest c rfl
    simp only [endsRun, Bool.or_eq_true, beq_iff_eq] at hc
    rcases hc with ((rfl | rfl) | rfl) | rfl
    · rw [signsFrom_blank]
      rfl
    all_goals
      rw [signsFrom_mark rfl rfl, Option.map_map]
      rfl

/-- An operand is one token. -/
theorem signsFrom_operand {text : String} (h : isOperand text = true) {rest : List Char}
    (hrest : EndsRun rest) : signsFrom .between (text.toList ++ rest) =
      (signsFrom .between rest).map (.operand text :: ·) := by
  simp only [isOperand, Bool.and_eq_true, beq_iff_eq] at h
  obtain ⟨hrun, hword⟩ := h
  split at hrun
  · next run habsorb =>
    have heq : run = text.toList.reverse := by simpa [Mode.run] using absorbAll_run habsorb
    rw [signsFrom_absorbAll habsorb, signsFrom_word hrest, heq, List.reverse_reverse,
      String.ofList_toList, hword]
  · cases hrun

/-! ## The text of a tree -/

/-- The spelling of an operator. -/
def Op.symbol : Op → String
  | .comma => ","
  | .or => "OR"
  | .and => "AND"
  | .eq => "="
  | .ne => "<>"
  | .lt => "<"
  | .le => "<="
  | .gt => ">"
  | .ge => ">="
  | .add => "+"
  | .sub => "-"
  | .mul => "*"
  | .div => "/"

/-- An operator with the blanks around it; no blank stands before a comma. -/
def Op.spaced (op : Op) : String :=
  if op = .comma then ", " else " " ++ op.symbol ++ " "

/-- The text of a conditional from those of its parts. -/
def conditionalText (c a b : String) : String :=
  "CASE WHEN " ++ c ++ " THEN " ++ a ++ " ELSE " ++ b ++ " END"

theorem toList_conditionalText (c a b : String) : (conditionalText c a b).toList =
    "CASE WHEN ".toList ++ (c.toList ++ (" THEN ".toList ++ (a.toList ++ (" ELSE ".toList ++
      (b.toList ++ " END".toList))))) := by
  show ("CASE WHEN " ++ c ++ " THEN " ++ a ++ " ELSE " ++ b ++ " END").toList = _
  simp only [String.toList_append, List.append_assoc]

/-- A tree as it is usually written. -/
def Tree.text : Tree → String
  | .operand text => text
  | .neg e => "-" ++ e.text
  | .not e => "NOT " ++ e.text
  | .binary l op r => l.text ++ op.spaced ++ r.text
  | .isNull e negated => e.text ++ " IS " ++ (if negated then "NOT " else "") ++ "NULL"
  | .paren e => "(" ++ e.text ++ ")"
  | .call function e => function ++ "(" ++ e.text ++ ")"
  | .caseWhen c a b => conditionalText c.text a.text b.text

/-- Can the tree be written?  Its operands are operands, and no sign stands before another one. -/
def Tree.Plain : Tree → Prop
  | .operand text => isOperand text = true
  | .neg e => e.Plain ∧ e.text.toList.head? ≠ some '-'
  | .not e => e.Plain
  | .binary l _ r => l.Plain ∧ r.Plain
  | .isNull e _ => e.Plain
  | .paren e => e.Plain
  | .call function e => isOperand function = true ∧ e.Plain
  | .caseWhen c a b => c.Plain ∧ a.Plain ∧ b.Plain

theorem Op.endsRun_spaced (op : Op) (rest : List Char) : EndsRun (op.spaced.toList ++ rest) := by
  intro c hc
  cases op <;> · cases hc; rfl

/-- A word with a blank after it is one token. -/
theorem signsFrom_keyword {w : String} {t : Sign} (run : List Char)
    (habsorb : absorbAll .between w.toList = some (.word run)) (hw : wordSign w = t)
    (rest : List Char) : signsFrom .between (w.toList ++ ' ' :: rest) =
      (signsFrom .between rest).map (t :: ·) := by
  have heq : run = w.toList.reverse := by simpa [Mode.run] using absorbAll_run habsorb
  rw [signsFrom_absorbAll habsorb, signsFrom_word (by rintro c ⟨⟩; rfl), heq,
    List.reverse_reverse, String.ofList_toList, hw, signsFrom_blank]

/-- An operator with its blanks is one token. -/
theorem signsFrom_spaced (op : Op) (rest : List Char) :
    signsFrom .between (op.spaced.toList ++ rest) =
      (signsFrom .between rest).map (.infixed op :: ·) := by
  have hword : ∀ {w : String} (run : List Char), absorbAll .between w.toList = some (.word run) →
      wordSign w = .infixed op →
      signsFrom .between (' ' :: (w.toList ++ ' ' :: rest)) =
        (signsFrom .between rest).map (.infixed op :: ·) := by
    intro w run habsorb hw
    rw [signsFrom_blank, signsFrom_keyword run habsorb hw]
  cases op with
  | comma =>
    show signsFrom .between (',' :: ' ' :: rest) = _
    rw [signsFrom_mark rfl rfl, signsFrom_blank]
  | or => exact hword (w := "OR") ['R', 'O'] rfl rfl
  | and => exact hword (w := "AND") ['D', 'N', 'A'] rfl rfl
  | _ =>
    show signsFrom .between (' ' :: _) = _
    rw [signsFrom_blank]
    show Option.map _ (signsFrom .between (' ' :: rest)) = _
    rw [signsFrom_blank]
    rfl

/-- A sign is one token when no other sign follows. -/
theorem signsFrom_minus {cs : List Char} (h : cs.head? ≠ some '-') :
    signsFrom .between ('-' :: cs) = (signsFrom .between cs).map (.infixed .sub :: ·) := by
  cases cs with
  | nil => rfl
  | cons c cs =>
    have hc : c ≠ '-' := fun hc => h (by rw [hc]; rfl)
    have habsorb : absorb .between '-' = none := rfl
    conv => lhs; unfold signsFrom
    simp only [habsorb, flush]
    split
    all_goals simp_all [Text.isBlank, markSign?]

/-- The end of a test for `NULL`. -/
theorem signsFrom_nullTest (negated : Bool) {rest : List Char} (hrest : EndsRun rest) :
    signsFrom .between ((" IS " ++ (if negated then "NOT " else "") ++ "NULL").toList ++ rest) =
      (signsFrom .between rest).map (nullTest negated ++ ·) := by
  have hnull : signsFrom .between ("NULL".toList ++ rest) =
      (signsFrom .between rest).map (.operand "NULL" :: ·) :=
    signsFrom_operand (by decide +kernel) hrest
  cases negated with
  | false =>
    show signsFrom .between (' ' :: ("IS".toList ++ ' ' :: ("NULL".toList ++ rest))) = _
    rw [signsFrom_blank, signsFrom_keyword (w := "IS") (t := .is) ['S', 'I'] rfl rfl, hnull,
      Option.map_map]
    rfl
  | true =>
    show signsFrom .between
      (' ' :: ("IS".toList ++ ' ' :: ("NOT".toList ++ ' ' :: ("NULL".toList ++ rest)))) = _
    rw [signsFrom_blank, signsFrom_keyword (w := "IS") (t := .is) ['S', 'I'] rfl rfl,
      signsFrom_keyword (w := "NOT") (t := .not) ['T', 'O', 'N'] rfl rfl, hnull,
      Option.map_map, Option.map_map]
    rfl

/-- **The text of a tree has the tokens of the tree**, whatever follows that ends its last run. -/
theorem signsFrom_text {e : Tree} (he : e.Plain) {rest : List Char} (hrest : EndsRun rest) :
    signsFrom .between (e.text.toList ++ rest) = (signsFrom .between rest).map (e.yield ++ ·) := by
  induction e generalizing rest with
  | operand text => exact signsFrom_operand he hrest
  | neg e ih =>
    have hsign : (e.text.toList ++ rest).head? ≠ some '-' := by
      cases htext : e.text.toList with
      | nil =>
        intro hhead
        exact absurd (hrest '-' hhead) (by decide)
      | cons c cs => simpa [htext] using he.2
    have htext : (Tree.neg e).text.toList ++ rest = '-' :: (e.text.toList ++ rest) := by
      simp [Tree.text]
    rw [htext, signsFrom_minus hsign, ih he.1 hrest, Option.map_map]
    rfl
  | not e ih =>
    have htext : (Tree.not e).text.toList ++ rest =
        "NOT".toList ++ ' ' :: (e.text.toList ++ rest) := by
      simp [Tree.text]
    rw [htext, signsFrom_keyword (w := "NOT") (t := .not) ['T', 'O', 'N'] rfl rfl, ih he hrest,
      Option.map_map]
    rfl
  | binary l op r ihl ihr =>
    have htext : (Tree.binary l op r).text.toList ++ rest =
        l.text.toList ++ (op.spaced.toList ++ (r.text.toList ++ rest)) := by
      simp [Tree.text]
    rw [htext, ihl he.1 (op.endsRun_spaced _), signsFrom_spaced, ihr he.2 hrest, Option.map_map,
      Option.map_map]
    simp [Function.comp_def, Tree.yield]
  | isNull e negated ih =>
    have htext : (Tree.isNull e negated).text.toList ++ rest = e.text.toList ++
        ((" IS " ++ (if negated then "NOT " else "") ++ "NULL").toList ++ rest) := by
      simp only [Tree.text, String.toList_append, List.append_assoc]
    have hends : EndsRun
        ((" IS " ++ (if negated then "NOT " else "") ++ "NULL").toList ++ rest) := by
      cases negated <;> · rintro c ⟨⟩; rfl
    rw [htext, ih he hends, signsFrom_nullTest negated hrest, Option.map_map]
    simp [Function.comp_def, Tree.yield]
  | paren e ih =>
    have htext : (Tree.paren e).text.toList ++ rest = '(' :: (e.text.toList ++ ')' :: rest) := by
      simp [Tree.text]
    rw [htext, signsFrom_mark rfl rfl, ih he (by rintro c ⟨⟩; rfl), signsFrom_mark rfl rfl,
      Option.map_map, Option.map_map]
    simp [Function.comp_def, Tree.yield]
  | call function e ih =>
    have htext : (Tree.call function e).text.toList ++ rest =
        function.toList ++ '(' :: (e.text.toList ++ ')' :: rest) := by
      simp [Tree.text]
    rw [htext, signsFrom_operand he.1 (by rintro c ⟨⟩; rfl), signsFrom_mark rfl rfl,
      ih he.2 (by rintro c ⟨⟩; rfl), signsFrom_mark rfl rfl, Option.map_map, Option.map_map,
      Option.map_map]
    simp [Function.comp_def, Tree.yield]
  | caseWhen c a b ihc iha ihb =>
    have htext : (Tree.caseWhen c a b).text.toList ++ rest =
        "CASE".toList ++ ' ' :: ("WHEN".toList ++ ' ' :: (c.text.toList ++
          ' ' :: ("THEN".toList ++ ' ' :: (a.text.toList ++ ' ' :: ("ELSE".toList ++ ' ' ::
            (b.text.toList ++ ' ' :: ("END".toList ++ rest))))))) := by
      rw [Tree.text, toList_conditionalText]
      simp only [List.append_assoc]
      rfl
    have hend : signsFrom .between ("END".toList ++ rest) =
        (signsFrom .between rest).map (.end :: ·) := by
      have habsorb : absorbAll .between "END".toList = some (.word ['D', 'N', 'E']) := rfl
      rw [signsFrom_absorbAll habsorb, signsFrom_word hrest]
      rfl
    rw [htext, signsFrom_keyword (w := "CASE") (t := .case) ['E', 'S', 'A', 'C'] rfl rfl,
      signsFrom_keyword (w := "WHEN") (t := .when) ['N', 'E', 'H', 'W'] rfl rfl,
      ihc he.1 (by rintro c ⟨⟩; rfl), signsFrom_blank,
      signsFrom_keyword (w := "THEN") (t := .then) ['N', 'E', 'H', 'T'] rfl rfl,
      iha he.2.1 (by rintro c ⟨⟩; rfl), signsFrom_blank,
      signsFrom_keyword (w := "ELSE") (t := .else) ['E', 'S', 'L', 'E'] rfl rfl,
      ihb he.2.2 (by rintro c ⟨⟩; rfl), signsFrom_blank, hend]
    simp only [Option.map_map]
    refine congrArg (fun f => (signsFrom .between rest).map f) (funext fun ts => ?_)
    simp only [Function.comp_apply, Tree.yield, List.cons_append, List.append_assoc,
      List.nil_append]

/-- **The tokens of the text of a tree are the tokens of the tree.** -/
theorem signs?_text {e : Tree} (he : e.Plain) : signs? e.text = some e.yield := by
  have hends : EndsRun [] := fun c hc => by cases hc
  have hsigns := signsFrom_text he hends
  rw [List.append_nil] at hsigns
  rw [signs?, hsigns]
  simp [signsFrom, flush]

/-- **A text is read as the grouping of the tree it was written from** exactly when the tree is
ordered. -/
theorem readText_text_iff {e : Tree} (he : e.Plain) :
    readText e.text = some e.bare ↔ e.Ordered := by
  rw [readText, signs?_text he, Option.bind_some, grouping_yield_iff]

/-! ## The operands of a text -/

/-- The run of a mode leads to it. -/
def Mode.Reached (m : Mode) : Prop :=
  absorbAll .between m.run.reverse = some m

theorem Mode.Reached.absorb {m m' : Mode} {c : Char} (h : m.Reached)
    (hc : Reading.absorb m c = some m') : m'.Reached := by
  unfold Mode.Reached at h ⊢
  rw [absorb_run hc, List.reverse_cons, absorbAll_append, h, Option.bind_some, absorbAll_cons, hc]
  rfl

/-- A word that is an operand is one in its own spelling, or `NULL`. -/
theorem eq_of_wordSign {w text : String} (h : wordSign w = .operand text) :
    text = w ∨ text = "NULL" := by
  rw [wordSign] at h
  split at h
  all_goals cases h
  · exact .inr rfl
  · exact .inl rfl

theorem isOperand_of_flush {m : Mode} {before : List Sign} (hm : m.Reached)
    (h : flush m = some before) {text : String} (hmem : .operand text ∈ before) :
    isOperand text = true := by
  cases m with
  | between =>
    cases h
    cases hmem
  | word run =>
    cases h
    have hword := (List.mem_singleton.mp hmem).symm
    rcases eq_of_wordSign hword with rfl | rfl
    · have hrun : absorbAll .between run.reverse = some (.word run) := hm
      simp only [isOperand, String.toList_ofList, hrun, Bool.true_and, beq_iff_eq]
      exact hword
    · decide +kernel
  | quoted close run => cases h

theorem isOperand_of_markSign? {c : Char} {t : Sign} (h : markSign? c = some t) :
    t.isOperand = false := by
  unfold markSign? at h
  split at h
  all_goals cases h
  all_goals rfl

/-- Every operand among the tokens of the rest of a text is an operand. -/
theorem isOperand_of_signsFrom {m : Mode} {cs : List Char} {ts : List Sign} (hm : m.Reached)
    (h : signsFrom m cs = some ts) {text : String} (hmem : .operand text ∈ ts) :
    isOperand text = true := by
  -- What ends a run is followed by marks, which are no operands, and by the rest.
  have hrest : ∀ {m : Mode} {cs : List Char} {before ts : List Sign} (marks : List Sign),
      m.Reached → flush m = some before → (∀ t ∈ marks, t.isOperand = false) →
      (∀ {ts : List Sign}, Mode.between.Reached → signsFrom .between cs = some ts →
        .operand text ∈ ts → isOperand text = true) →
      (signsFrom .between cs).map (fun ts => before ++ (marks ++ ts)) = some ts →
      .operand text ∈ ts → isOperand text = true := by
    intro m cs before ts marks hm hbefore hmarks ih h hmem
    obtain ⟨ts', hts', rfl⟩ := Option.map_eq_some_iff.mp h
    rcases List.mem_append.mp hmem with hmem | hmem
    · exact isOperand_of_flush hm hbefore hmem
    · rcases List.mem_append.mp hmem with hmem | hmem
      · exact absurd (hmarks _ hmem) (by simp [Sign.isOperand])
      · exact ih rfl hts' hmem
  fun_induction signsFrom m cs generalizing ts with
  | case1 m => exact isOperand_of_flush hm h hmem
  | case2 m c cs m' hc ih => exact ih (hm.absorb hc) h hmem
  | case4 m before hbefore cs hc ih =>
    exact hrest [.infixed .ne] hm hbefore (by simp [Sign.isOperand]) ih h hmem
  | case5 m before hbefore cs hc ih =>
    exact hrest [.infixed .le] hm hbefore (by simp [Sign.isOperand]) ih h hmem
  | case6 m before hbefore cs hc ih =>
    exact hrest [.infixed .ge] hm hbefore (by simp [Sign.isOperand]) ih h hmem
  | case9 m before hbefore c cs _ _ _ _ _ hblank hc ih =>
    exact hrest [] hm hbefore (by simp) ih h hmem
  | case10 m before hbefore c cs _ _ _ _ _ hblank t ht hc ih =>
    exact hrest [t] hm hbefore (by simpa using isOperand_of_markSign? ht) ih h hmem
  | _ => cases h

/-- The operands of a tree. -/
def Tree.leaves : Tree → List String
  | .operand text => [text]
  | .neg e => e.leaves
  | .not e => e.leaves
  | .binary l _ r => l.leaves ++ r.leaves
  | .isNull e _ => e.leaves
  | .paren e => e.leaves
  | .call function e => function :: e.leaves
  | .caseWhen c a b => c.leaves ++ a.leaves ++ b.leaves

theorem Tree.leaves_bare (e : Tree) : e.bare.leaves = e.leaves := by
  induction e <;> simp_all [bare, leaves]

/-- The operands of a tree are among its tokens. -/
theorem Tree.mem_yield_of_mem_leaves {e : Tree} {text : String} (h : text ∈ e.leaves) :
    .operand text ∈ e.yield := by
  induction e <;> simp_all [leaves, yield] <;> grind

/-- **What is read consists of operands.** -/
theorem isOperand_of_readText {text : String} {e : Tree} (h : readText text = some e)
    {operand : String} (hmem : operand ∈ e.leaves) : isOperand operand = true := by
  obtain ⟨ts, hts, hgroup⟩ := Option.bind_eq_some_iff.mp h
  obtain ⟨e', hread, rfl⟩ := Option.map_eq_some_iff.mp hgroup
  obtain ⟨-, rfl⟩ := ordered_of_read hread
  rw [Tree.leaves_bare] at hmem
  exact isOperand_of_signsFrom (m := .between) rfl hts (Tree.mem_yield_of_mem_leaves hmem)

end MeasureSql.Sql.Reading
