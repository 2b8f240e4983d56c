import MeasureSql.Proofs.Dax.Cutting
import MeasureSql.Proofs.Text.Classes

/-!
# The pieces of a written text

A printer sets words next to blanks, parentheses and commas.  Each piece that it writes is cut off
as the word it was meant to be, provided that nothing after it can be taken for a part of it: after
a name or a number one of a few characters stands, and no minus sign follows another.

## Main definitions

* `Bounded` — a text begins with a character that ends every word, or is empty.
* `isWord` — is a name a bare word?
* `standsBetween` — can a text stand between two marks as it is?
* `Escaped` — the inside of a quoted text.
* `BinaryOp.word` — the word that an operator is written as.
* `Writes` — before any delimiter a text is cut off as some words.
* `Says` — words derive a phrase.

## Main results

* `scanQuoted?_of_escaped` — the inside of a quoted text is scanned up to the closing mark.
* `writes_word`, `writes_integer`, `writes_decimal`, `writes_text`, `writes_quotedName`,
  `writes_bracketed` — the pieces of one word each.
* `Writes.enclosed`, `Writes.joined`, `Writes.minus` — longer pieces.
-/

namespace MeasureSql.Dax

open Text

/-! ## Ends -/

/-- The characters that a printer sets behind a word. -/
def delimiters : List Char := [' ', '(', ')', ',', '[']

/-- What follows begins with a character that ends every word, or there is nothing. -/
def Bounded (cs : List Char) : Prop :=
  ∀ c ∈ cs.head?, c ∈ delimiters

@[simp]
theorem bounded_nil : Bounded [] := by
  simp [Bounded]

@[simp]
theorem bounded_cons {c : Char} {cs : List Char} : Bounded (c :: cs) ↔ c ∈ delimiters := by
  simp [Bounded]

/-- A run that no delimiter belongs to ends before a bounded text. -/
theorem ends_of_bounded {p : Char → Bool} (delimits : delimiters.all (!p ·) = true)
    {rest : List Char} (bounded : Bounded rest) : ∀ c ∈ rest.head?, p c = false :=
  fun c hc => by simpa using List.all_eq_true.mp delimits c (bounded c hc)

/-! ## Writing -/

/-- Words in parentheses. -/
def enclosed (ws : List Word) : List Word :=
  (.lParen, "(") :: (ws ++ [(.rParen, ")")])

/-- Words with an operator between them. -/
def joined (left : List Word) (op : Word) (right : List Word) : List Word :=
  left ++ op :: right

/-- A text that is cut off as some words wherever a delimiter follows it. -/
def Writes (text : String) (ws : List Word) : Prop :=
  ∀ rest, Bounded rest → CutsOff (text.toList ++ rest) ws rest

theorem Writes.cuts {text : String} {ws : List Word} (h : Writes text ws) :
    Cuts text.toList ws := by
  have cut := (h [] bounded_nil).cuts .done
  simpa using cut

/-! ## Blanks and marks -/

/-- Blanks at the front do not matter. -/
theorem cuts_dropWhile_isBlank {cs : List Char} {ws : List Word} :
    Cuts (cs.dropWhile isBlank) ws ↔ Cuts cs ws := by
  cases blank : cs.takeWhile isBlank with
  | nil =>
    have same := List.takeWhile_append_dropWhile (p := isBlank) (l := cs)
    rw [blank, List.nil_append] at same
    rw [same]
  | cons c blanks =>
    have found : nextTrivia? cs = some (Scan.takeWhile isBlank cs) := by
      simp [nextTrivia?, Scan.takeWhile, blank]
    have off := cutsOff_trivia found ws
    simpa [Scan.takeWhile] using off.symm

/-- A space is cut off without a word. -/
theorem cutsOff_space (rest : List Char) : CutsOff (' ' :: rest) [] rest := by
  intro ws
  rw [← cuts_dropWhile_isBlank, List.dropWhile_cons_of_pos (by decide), cuts_dropWhile_isBlank]
  simp

/-- Nothing insignificant begins with such a character. -/
theorem nextTrivia?_eq_none {c : Char} {cs : List Char} (visible : isBlank c = false)
    (slash : c ≠ '/') (minus : c ≠ '-') : nextTrivia? (c :: cs) = none := by
  have none : scanComment? (c :: cs) = none := by
    unfold scanComment?
    split
    · next h => exact absurd (List.cons.inj h).1 slash
    · next h => exact absurd (List.cons.inj h).1 minus
    · next h => exact absurd (List.cons.inj h).1 slash
    · rfl
  simp [nextTrivia?, Scan.takeWhile, visible, none]

theorem cutsOff_leftParen (rest : List Char) : CutsOff ('(' :: rest) [(.lParen, "(")] rest :=
  cutsOff_token (nextTrivia?_eq_none (by decide) (by decide) (by decide)) (s := ⟨['('], rest⟩) rfl

theorem cutsOff_rightParen (rest : List Char) : CutsOff (')' :: rest) [(.rParen, ")")] rest :=
  cutsOff_token (nextTrivia?_eq_none (by decide) (by decide) (by decide)) (s := ⟨[')'], rest⟩) rfl

theorem cutsOff_comma (rest : List Char) : CutsOff (',' :: rest) [(.comma, ",")] rest :=
  cutsOff_token (nextTrivia?_eq_none (by decide) (by decide) (by decide)) (s := ⟨[','], rest⟩) rfl

/-- A minus sign is cut off when no other one follows. -/
theorem cutsOff_minus {rest : List Char} (single : rest.head? ≠ some '-') :
    CutsOff ('-' :: rest) [(.minus, "-")] rest := by
  have significant : nextTrivia? ('-' :: rest) = none := by
    cases rest with
    | nil => rfl
    | cons c rest =>
      have other : c ≠ '-' := by simpa using single
      have none : scanComment? ('-' :: c :: rest) = none := by
        unfold scanComment?
        split
        · next h => cases h
        · next h =>
          simp only [List.cons.injEq] at h
          exact absurd h.2.1 other
        · next h => cases h
        · rfl
      simp [nextTrivia?, Scan.takeWhile, isBlank, none]
  exact cutsOff_token significant (s := ⟨['-'], rest⟩) rfl

/-- The word that an operator is written as. -/
def BinaryOp.word : BinaryOp → Word
  | .add => (.plus, "+")
  | .subtract => (.minus, "-")
  | .multiply => (.star, "*")
  | .divide => (.slash, "/")
  | .power => (.caret, "^")
  | .equals => (.eq, "=")
  | .notEquals => (.notEq, "<>")
  | .lessThan => (.lt, "<")
  | .lessEqual => (.ltEq, "<=")
  | .greaterThan => (.gt, ">")
  | .greaterEqual => (.gtEq, ">=")
  | .and => (.and, "&&")
  | .or => (.or, "||")
  | .concat => (.ampersand, "&")

/-- An operator with a blank behind it is cut off. -/
theorem cutsOff_operator (op : BinaryOp) (rest : List Char) :
    CutsOff (op.symbol.toList ++ ' ' :: rest) [op.word] (' ' :: rest) := by
  cases op <;>
    exact cutsOff_token
      (by simp [nextTrivia?, Scan.takeWhile, isBlank, scanComment?, BinaryOp.symbol])
      (s := ⟨_, ' ' :: rest⟩) rfl

/-! ## Names -/

/-- Can the character begin a word? -/
def opensWord (c : Char) : Bool :=
  isIdentStart c || c == '_'

/-- Is a name a bare word? -/
def isWord (name : String) : Bool :=
  match name.toList with
  | c :: cs => opensWord c && cs.all isIdentPart
  | [] => false

/-- Of the first 128 characters letters and the underscore begin words. -/
theorem isAlpha_of_opensWord {c : Char} (opens : opensWord c = true) (ascii : isAscii c = true) :
    c.isAlpha = true ∨ c = '_' := by
  simpa [opensWord, isIdentStart, ascii] using opens

/-- No word begins with a blank. -/
theorem isBlank_of_opensWord {c : Char} (opens : opensWord c = true) : isBlank c = false := by
  refine Bool.eq_false_iff.mpr fun blank => ?_
  have places := blank
  simp only [isBlank, Bool.or_eq_true, Bool.and_eq_true, decide_eq_true_eq, beq_iff_eq] at places
  by_cases ascii : isAscii c = true
  · rcases isAlpha_of_opensWord opens ascii with alpha | rfl
    · have letter := toNat_of_isAlpha alpha
      omega
    · revert blank
      decide
  · have high : isAscii c = false := Bool.eq_false_iff.mpr ascii
    have other : identStartDiff.contains c = false :=
      not_contains_of_isBlank (by decide +kernel) (by decide +kernel) blank high
    have start : (alphabeticSet.contains c ^^ identStartDiff.contains c) = true ∨ c = '_' := by
      simpa [opensWord, isIdentStart, ascii] using opens
    rcases start with start | rfl
    · simp [not_alphabetic_of_isBlank blank high, other] at start
    · exact ascii (by decide)

/-- No word begins with a digit. -/
theorem isDigit_of_opensWord {c : Char} (opens : opensWord c = true) : c.isDigit = false := by
  refine Bool.eq_false_iff.mpr fun digit => ?_
  have low := toNat_of_isDigit digit
  have ascii : isAscii c = true := by
    simp only [isAscii, decide_eq_true_eq, UInt32.lt_iff_toNat_lt]
    exact Nat.lt_of_le_of_lt low.2 (by decide)
  rcases isAlpha_of_opensWord opens ascii with alpha | rfl
  · have letter := toNat_of_isAlpha alpha
    omega
  · revert digit
    decide

/-- The marks of the language. -/
def marks : List Char :=
  ['"', '\x27', '[', ']', '(', ')', '<', '>', '&', '|', '+', '-', '*', '/', '^', '=', ',', ';', '.']

/-- No word begins with a mark. -/
theorem not_mem_marks_of_opensWord {c : Char} (opens : opensWord c = true) : c ∉ marks := by
  have no : marks.all (!opensWord ·) = true := by decide
  intro mem
  have closed := List.all_eq_true.mp no c mem
  rw [opens] at closed
  cases closed

theorem mem_marks_of_markKind? {c : Char} {kind : TokenKind} (h : markKind? c = some kind) :
    c ∈ marks := by
  unfold markKind? at h
  split at h
  all_goals first | decide | cases h

/-- Where no mark and no digit stands, only a word can begin. -/
theorem nextToken?_eq_scanWord? {c : Char} {cs : List Char} (noMark : c ∉ marks)
    (noDigit : c.isDigit = false) : nextToken? (c :: cs) = scanWord? (c :: cs) := by
  have other : ∀ d ∈ marks, c ≠ d := fun d hd same => noMark (same ▸ hd)
  have bracketed := scanBracketed?_cons_eq_none (other '[' (by decide)) cs
  have number := scanNumber?_cons_eq_none noDigit cs
  have doubleMark : scanDoubleMark? (c :: cs) = none := by
    unfold scanDoubleMark?
    split
    all_goals first
      | next h => exact absurd (List.cons.inj h).1 (other _ (by decide))
      | rfl
  have mark : scanMark? (c :: cs) = none := by
    cases kind : markKind? c with
    | none => rw [scanMark?, kind, Option.map_none]
    | some k => exact absurd (mem_marks_of_markKind? kind) noMark
  unfold nextToken?
  rw [bracketed, number, doubleMark, mark]
  dsimp only
  split
  · next h => exact absurd (List.cons.inj h).1 (other '"' (by decide))
  · next h => exact absurd (List.cons.inj h).1 (other '\x27' (by decide))
  · rfl

/-- **A bare word is written as it is.** -/
theorem writes_word {name : String} (word : isWord name = true) :
    Writes name [(.ofWord name, name)] := by
  intro rest bounded
  have delimits : delimiters.all (!isIdentPart ·) = true := by decide
  unfold isWord at word
  split at word
  · next c cs letters =>
    obtain ⟨opens, parts⟩ := Bool.and_eq_true_iff.mp word
    have noMark := not_mem_marks_of_opensWord opens
    have whole : String.ofList (c :: cs) = name := by rw [← letters, String.ofList_toList]
    have run := takeWhile_run (List.all_eq_true.mp parts) (ends_of_bounded delimits bounded)
    have found : nextToken? (c :: (cs ++ rest)) = some (.ofWord name, ⟨c :: cs, rest⟩) := by
      rw [nextToken?_eq_scanWord? noMark (isDigit_of_opensWord opens)]
      simp [scanWord?, show (isIdentStart c || c == '_') = true from opens, run, Scan.after, whole]
    have significant : nextTrivia? (c :: (cs ++ rest)) = none :=
      nextTrivia?_eq_none (isBlank_of_opensWord opens) (fun same => noMark (same ▸ by decide))
        fun same => noMark (same ▸ by decide)
    have off := cutsOff_token significant found
    rw [letters]
    rwa [whole] at off
  · cases word

/-! ## Numbers -/

theorem scanDigits?_run {digits rest : List Char} (nonempty : digits ≠ [])
    (all : ∀ c ∈ digits, c.isDigit = true) (ends : ∀ c ∈ rest.head?, c.isDigit = false) :
    scanDigits? (digits ++ rest) = some ⟨digits, rest⟩ := by
  simp [scanDigits?, takeWhile_run all ends, nonempty]

/-- No exponent begins with a delimiter. -/
theorem withExponent_of_bounded {taken rest : List Char} (bounded : Bounded rest) :
    withExponent ⟨taken, rest⟩ = ⟨taken, rest⟩ := by
  have none : scanExponent? rest = none := by
    cases rest with
    | nil => rfl
    | cons c rest =>
      have delimits : delimiters.all (!(fun d => d == 'e' || d == 'E') ·) = true := by decide
      have no := ends_of_bounded delimits bounded c rfl
      simp [scanExponent?, no]
  simp [withExponent, none]

theorem not_isDigit_delimiters : delimiters.all (!Char.isDigit ·) = true := by
  decide

/-- A number at the front of a text is its token. -/
theorem cutsOff_number {c : Char} {cs : List Char} {kind : TokenKind} {s : Scan}
    (digit : c.isDigit = true) (found : scanNumber? (c :: cs) = some (kind, s)) :
    CutsOff (c :: cs) [(kind, String.ofList s.taken)] s.rest := by
  have other : ∀ d, d.isDigit = false → c ≠ d := by
    rintro d no rfl
    cases digit.symm.trans no
  have visible : isBlank c = false := by
    refine Bool.eq_false_iff.mpr fun blank => ?_
    simp only [isBlank, Bool.or_eq_true, Bool.and_eq_true, decide_eq_true_eq, beq_iff_eq] at blank
    have low := toNat_of_isDigit digit
    omega
  have bracketed := scanBracketed?_cons_eq_none (other '[' (by decide)) cs
  refine cutsOff_token (nextTrivia?_eq_none visible (other '/' (by decide)) (other '-' (by decide)))
    ?_
  unfold nextToken?
  rw [bracketed, found]
  dsimp only
  split
  · next h => exact absurd (List.cons.inj h).1 (other '"' (by decide))
  · next h => exact absurd (List.cons.inj h).1 (other '\x27' (by decide))
  · rfl

/-- **A run of digits is written as it is.** -/
theorem writes_integer {digits : List Char} (nonempty : digits ≠ [])
    (all : ∀ c ∈ digits, c.isDigit = true) :
    Writes (String.ofList digits) [(.integer, String.ofList digits)] := by
  intro rest bounded
  rw [String.toList_ofList]
  have run := scanDigits?_run nonempty all (ends_of_bounded not_isDigit_delimiters bounded)
  have found : scanNumber? (digits ++ rest) = some (.integer, ⟨digits, rest⟩) := by
    unfold scanNumber?
    rw [run]
    dsimp only
    split
    · exact absurd (bounded_cons.mp bounded) (by decide)
    · rw [withExponent_of_bounded bounded]
  obtain _ | ⟨c, cs⟩ := digits
  · exact absurd rfl nonempty
  · exact cutsOff_number (all c (by simp)) found

/-- **A decimal is written as it is.** -/
theorem writes_decimal {whole fraction : List Char} (nonempty : whole ≠ [])
    (all : ∀ c ∈ whole, c.isDigit = true) (nonempty' : fraction ≠ [])
    (all' : ∀ c ∈ fraction, c.isDigit = true) :
    Writes (String.ofList (whole ++ '.' :: fraction))
      [(.float, String.ofList (whole ++ '.' :: fraction))] := by
  intro rest bounded
  have run : scanDigits? (whole ++ '.' :: (fraction ++ rest)) =
      some ⟨whole, '.' :: (fraction ++ rest)⟩ := by
    refine scanDigits?_run nonempty all fun c hc => ?_
    cases hc
    rfl
  have run' := scanDigits?_run nonempty' all' (ends_of_bounded not_isDigit_delimiters bounded)
  have found : scanNumber? (whole ++ '.' :: (fraction ++ rest)) =
      some (.float, ⟨whole ++ '.' :: fraction, rest⟩) := by
    simp [scanNumber?, run, run', Scan.after, withExponent_of_bounded bounded]
  rw [String.toList_ofList, List.append_assoc, List.cons_append]
  obtain _ | ⟨c, cs⟩ := whole
  · exact absurd rfl nonempty
  · exact cutsOff_number (all c (by simp)) found

/-! ## Quotes and brackets -/

/-- Can a text stand between two marks as it is? -/
def standsBetween (mark : Char) (body : String) : Bool :=
  body.toList.all fun c => c != mark && c != '\\'

/-- The inside of a quoted text: a backslash takes a character with it, and a mark stands twice. -/
inductive Escaped (mark : Char) : List Char → Prop
  | nil : Escaped mark []
  | plain {c : Char} {cs : List Char} (noBackslash : c ≠ '\\') (noMark : c ≠ mark)
      (h : Escaped mark cs) : Escaped mark (c :: cs)
  | backslash (d : Char) {cs : List Char} (h : Escaped mark cs) : Escaped mark ('\\' :: d :: cs)
  | twice {cs : List Char} (noBackslash : mark ≠ '\\') (h : Escaped mark cs) :
      Escaped mark (mark :: mark :: cs)

/-- **The inside of a quoted text is scanned up to the closing mark.** -/
theorem scanQuoted?_of_escaped {mark : Char} (apart : mark ≠ '\\') {body : List Char}
    (h : Escaped mark body) {rest : List Char} (ends : rest.head? ≠ some mark) :
    scanQuoted? mark (body ++ mark :: rest) = some ⟨body ++ [mark], rest⟩ := by
  induction h with
  | nil =>
    unfold scanQuoted?
    cases rest with
    | nil => simp [apart]
    | cons d rest =>
      have other : d ≠ mark := by simpa using ends
      simp [apart, other]
  | plain noBackslash noMark _ ih =>
    unfold scanQuoted?
    simp [noBackslash, noMark, ih, Scan.after]
  | backslash d _ ih =>
    unfold scanQuoted?
    simp [ih, Scan.after]
  | twice noBackslash _ ih =>
    unfold scanQuoted?
    simp [noBackslash, ih, Scan.after]

theorem escaped_of_plain {mark : Char} {body : List Char}
    (plain : body.all (fun c => c != mark && c != '\\') = true) : Escaped mark body := by
  induction body with
  | nil => exact .nil
  | cons c body ih =>
    simp only [List.all_cons, Bool.and_eq_true, bne_iff_ne, ne_eq] at plain
    exact .plain plain.1.2 plain.1.1 (ih plain.2)

/-- A text that can stand between marks is scanned to the closing mark. -/
theorem scanQuoted?_plain {mark : Char} (apart : mark ≠ '\\') {body : List Char}
    (plain : body.all (fun c => c != mark && c != '\\') = true) {rest : List Char}
    (ends : rest.head? ≠ some mark) :
    scanQuoted? mark (body ++ mark :: rest) = some ⟨body ++ [mark], rest⟩ :=
  scanQuoted?_of_escaped apart (escaped_of_plain plain) ends

/-- A text that can stand between marks stands for itself. -/
theorem unescape_plain {mark : Char} {body : String} (plain : standsBetween mark body = true) :
    unescape mark body = body := by
  have chars : ∀ cs : List Char, cs.all (fun c => c != mark && c != '\\') = true →
      unescapeChars mark cs = cs := by
    intro cs plain
    induction cs with
    | nil => rfl
    | cons c cs ih =>
      simp only [List.all_cons, Bool.and_eq_true, bne_iff_ne, ne_eq] at plain
      unfold unescapeChars
      simp [plain.1.1, plain.1.2, ih plain.2]
  rw [unescape, chars _ plain, String.ofList_toList]

/-- What stands between two delimiters. -/
theorem stripDelimiters_between {left right : String} (hl : left.length = 1)
    (hr : right.length = 1) (body : String) : stripDelimiters (left ++ body ++ right) = body := by
  obtain ⟨c, hc⟩ := List.length_eq_one_iff.mp (String.length_toList ▸ hl)
  obtain ⟨d, hd⟩ := List.length_eq_one_iff.mp (String.length_toList ▸ hr)
  simp [stripDelimiters, hc, hd]

/-- **A text is written in quotes.** -/
theorem writes_text {body : String} (plain : standsBetween '"' body = true) :
    Writes ("\"" ++ body ++ "\"") [(.string, "\"" ++ body ++ "\"")] := by
  intro rest bounded
  have ends : rest.head? ≠ some '"' := fun same => absurd (bounded _ same) (by decide)
  have found : nextToken? ('"' :: (body.toList ++ '"' :: rest)) =
      some (.string, ⟨'"' :: (body.toList ++ ['"']), rest⟩) := by
    simp [nextToken?, scanQuoted?_plain (by decide) plain ends, Scan.after]
  have off := cutsOff_token (nextTrivia?_eq_none (by decide) (by decide) (by decide)) found
  have whole : String.ofList ('"' :: (body.toList ++ ['"'])) = "\"" ++ body ++ "\"" := by
    simp [← String.toList_inj]
  rw [whole] at off
  simpa using off

/-- **A name is written in quotes.** -/
theorem writes_quotedName {body : String} (plain : standsBetween '\x27' body = true) :
    Writes ("'" ++ body ++ "'") [(.quotedIdentifier, "'" ++ body ++ "'")] := by
  intro rest bounded
  have ends : rest.head? ≠ some '\x27' := fun same => absurd (bounded _ same) (by decide)
  have found : nextToken? ('\x27' :: (body.toList ++ '\x27' :: rest)) =
      some (.quotedIdentifier, ⟨'\x27' :: (body.toList ++ ['\x27']), rest⟩) := by
    simp [nextToken?, scanQuoted?_plain (by decide) plain ends, Scan.after]
  have off := cutsOff_token (nextTrivia?_eq_none (by decide) (by decide) (by decide)) found
  have whole : String.ofList ('\x27' :: (body.toList ++ ['\x27'])) = "'" ++ body ++ "'" := by
    simp [← String.toList_inj]
  rw [whole] at off
  simpa using off

/-- **A name is written in brackets.** -/
theorem writes_bracketed {body : String} (nonempty : body ≠ "") (plain : ']' ∉ body.toList) :
    Writes ("[" ++ body ++ "]") [(.columnRef, "[" ++ body ++ "]")] := by
  intro rest _
  have scanned : scanBracketed? ('[' :: (body.toList ++ ']' :: rest)) =
      some ⟨'[' :: (body.toList ++ [']']), rest⟩ :=
    scanBracketed?_eq_some_iff.mpr ⟨body.toList, by simpa using nonempty, plain, rfl, rfl⟩
  have found : nextToken? ('[' :: (body.toList ++ ']' :: rest)) =
      some (.columnRef, ⟨'[' :: (body.toList ++ [']']), rest⟩) := by
    simp [nextToken?, scanned]
  have off := cutsOff_token (nextTrivia?_eq_none (by decide) (by decide) (by decide)) found
  have whole : String.ofList ('[' :: (body.toList ++ [']'])) = "[" ++ body ++ "]" := by
    simp [← String.toList_inj]
  rw [whole] at off
  simpa using off

/-! ## Longer pieces -/

theorem Writes.enclosed {text : String} {ws : List Word} (h : Writes text ws) :
    Writes ("(" ++ text ++ ")") (enclosed ws) := by
  intro rest _
  have inner := h (')' :: rest) (by simp [delimiters])
  have whole := (cutsOff_leftParen _).trans (inner.trans (cutsOff_rightParen rest))
  simpa [Dax.enclosed] using whole

/-- Texts with an operator between them. -/
theorem Writes.joined {left right symbol : String} {word : Word} {ws ws' : List Word}
    (hl : Writes left ws)
    (between : ∀ rest, CutsOff (symbol.toList ++ ' ' :: rest) [word] (' ' :: rest))
    (hr : Writes right ws') :
    Writes (left ++ " " ++ symbol ++ " " ++ right) (joined ws word ws') := by
  intro rest bounded
  have before := (hl (' ' :: (symbol.toList ++ ' ' :: (right.toList ++ rest)))
    (by simp [delimiters])).trans (cutsOff_space _)
  have after := (cutsOff_space _).trans (hr rest bounded)
  have whole := before.trans ((between _).trans after)
  simpa [Dax.joined] using whole

/-- A minus sign before a text that does not begin with one. -/
theorem Writes.minus {text : String} {ws : List Word} (h : Writes text ws)
    (single : text.toList.head? ≠ some '-') : Writes ("-" ++ text) ((.minus, "-") :: ws) := by
  intro rest bounded
  have single' : (text.toList ++ rest).head? ≠ some '-' := by
    cases chars : text.toList with
    | nil =>
      rw [List.nil_append]
      exact fun same => absurd (bounded _ same) (by decide)
    | cons c cs =>
      rw [chars] at single
      exact single
  have whole := (cutsOff_minus single').trans (h rest bounded)
  simpa using whole

/-- A word with a blank before a text. -/
theorem Writes.before {name text : String} {ws : List Word} (word : isWord name = true)
    (h : Writes text ws) : Writes (name ++ " " ++ text) ((.ofWord name, name) :: ws) := by
  intro rest bounded
  have first := writes_word word (' ' :: (text.toList ++ rest)) (by simp [delimiters])
  have whole := first.trans ((cutsOff_space _).trans (h rest bounded))
  simpa using whole

/-! ## Phrases -/

/-- The words derive a phrase, where no variable is bound. -/
def Says (ws : List Word) (phrase : Phrase) : Prop :=
  Derives [] (ws.map Word.token) phrase

section Says

variable {ws ws' : List Word} {e l r : Expr}

theorem Says.weaken {m n : Nat} (loose : n ≤ m) (h : Says ws (.level m e)) :
    Says ws (.level n e) :=
  Derives.level_of_le h loose

theorem Says.signed_call (h : Says ws (.call e)) : Says ws (.signed e) :=
  .unsigned (.unraised h)

theorem Says.call_primary (h : Says ws (.primary e)) : Says ws (.call e) :=
  .unapplied h

theorem Says.expression_level {n : Nat} (h : Says ws (.level n e)) : Says ws (.expression e) :=
  .ofLevel (h.weaken (Nat.zero_le n))

theorem Says.enclosed (h : Says ws (.expression e)) : Says (enclosed ws) (.primary e) := by
  have left : (Word.token (.lParen, "(")).kind = .lParen := rfl
  have right : (Word.token (.rParen, ")")).kind = .rParen := rfl
  have grouped := Derives.group left h right
  simpa [Says, Dax.enclosed] using grouped

theorem Says.joined {op : BinaryOp} {n : Nat} {word : Word} (hl : Says ws (.level n l))
    (joins : JoinsAt word.1 op n) (hr : Says ws' (.level (n + 1) r)) :
    Says (joined ws word ws') (.level n (.binary l op r)) := by
  have whole := Derives.join (t := word.token) hl joins hr
  simpa [Says, Dax.joined] using whole

/-- `NOT` before a parenthesis is a call. -/
theorem Says.notCall (h : Says ws (.expression e)) :
    Says ((.not, "NOT") :: Dax.enclosed ws) (.call (.call "NOT" [e])) := by
  have callee : Derives [] [Word.token (.not, "NOT")] (.callee "NOT") := .operatorWord rfl
  have left : (Word.token (.lParen, "(")).kind = .lParen := rfl
  have right : (Word.token (.rParen, ")")).kind = .rParen := rfl
  have applied := Derives.apply callee left (.someArguments h .noMore) right (.call (by simp))
  simpa [Says, Dax.enclosed] using applied

end Says

end MeasureSql.Dax
