import MeasureSql.Proofs.Pattern.Catalog
import MeasureSql.Proofs.Sql.Composed

/-!
# Templates as forms

A template is SQL with holes, and it is put together as all SQL is.  Its form says how: where its
holes are, and which words stand around them.  The forms of the catalog are read off its templates
in every dialect, and their words are those of the texts that are put together.  So whatever
vocabulary the arguments of a call are put together from, its SQL is put together from the same.

## Main definitions

* `Form` — how a template is put together, and `Form.pieces`, the template.
* `Form.read?` — the form of a template; it is checked against the template and need not be trusted.
* `FillsHole` — a value may stand in a hole.

## Main results

* `Form.renameFrom_textOf` — a template in the words of a dialect.
* `Form.composed_fill` — a form with its holes filled is put together from a vocabulary.
* `Catalog.composed_render` — the SQL of a pattern of the catalog.
* `Catalog.allFill_bind` — the arguments of a call fill the holes of its pattern.
-/

namespace MeasureSql

open Sql

namespace Template

/-- Is it a name, of a hole or of a function? -/
def isName (cs : List Char) : Bool :=
  cs.head?.any isNameStart && cs.all isNamePart

/-- The text of a piece. -/
def Piece.text : Piece → List Char
  | .char c => [c]
  | .hole name => '\x7b' :: (name.toList ++ ['\x7d'])

/-- How a template is put together. -/
inductive Form where
  | hole (name : String)
  | word (w : List Char)
  | led (w : List Char) (rest : Form)
  | beside (first rest : Form)
  | listed (first rest : Form)
  | paren (inner : Form)
  | applied (f : List Char) (inner : Form)
  | called (f : List Char)
  /-- What rows are read from, and the condition on them if there is one. -/
  | filtered
  deriving Repr

namespace Form

/-- The template of a form. -/
def pieces : Form → List Piece
  | .hole name => [.hole name]
  | .word w => w.map .char
  | .led w rest => w.map .char ++ .char ' ' :: rest.pieces
  | .beside first rest => first.pieces ++ .char ' ' :: rest.pieces
  | .listed first rest => first.pieces ++ .char ',' :: .char ' ' :: rest.pieces
  | .paren inner => .char '(' :: (inner.pieces ++ [.char ')'])
  | .applied f inner => f.map .char ++ .char '(' :: (inner.pieces ++ [.char ')'])
  | .called f => f.map .char ++ [.char '(', .char ')']
  | .filtered => [.hole "from", .hole "where"]

/-- The form with the names that functions have in a dialect. -/
def renamed (d : Dialect) : Form → Form
  | .hole name => .hole name
  | .word w => .word w
  | .led w rest => .led w (rest.renamed d)
  | .beside first rest => .beside (first.renamed d) (rest.renamed d)
  | .listed first rest => .listed (first.renamed d) (rest.renamed d)
  | .paren inner => .paren (inner.renamed d)
  | .applied f inner => .applied (shownName d f '(') (inner.renamed d)
  | .called f => .called (shownName d f '(')
  | .filtered => .filtered

/-- Are the words of a form those that SQL is put together from? -/
def isAllowed : Form → Bool
  | .hole name => isName name.toList && name != "where"
  | .word w => fixedWords.contains (String.ofList w)
  | .led w rest => leads.contains (String.ofList w) && rest.isAllowed
  | .beside first rest | .listed first rest => first.isAllowed && rest.isAllowed
  | .paren inner => inner.isAllowed
  | .applied f inner => isName f && inner.isAllowed
  | .called f => isName f
  | .filtered => true

/-! ## Reading a form -/

/-- The word at the front of a template. -/
def takeWord : List Piece → List Char × List Piece
  | .char c :: rest =>
    if [' ', ',', '(', ')'].contains c then ([], .char c :: rest)
    else match takeWord rest with
      | (w, rest) => (c :: w, rest)
  | rest => ([], rest)

mutual

/-- The form at the front of a template, up to a space or a comma. -/
def item? : Nat → List Piece → Option (Form × List Piece)
  | 0, _ => none
  | _, .hole "from" :: .hole "where" :: rest => some (.filtered, rest)
  | _, .hole name :: rest => some (.hole name, rest)
  | fuel + 1, .char '(' :: rest => match sequence? fuel rest with
    | some (inner, .char ')' :: rest) => some (.paren inner, rest)
    | _ => none
  | fuel + 1, ps => match takeWord ps with
    | (f, .char '(' :: .char ')' :: rest) => some (.called f, rest)
    | (f, .char '(' :: rest) => match sequence? fuel rest with
      | some (inner, .char ')' :: rest) => some (.applied f inner, rest)
      | _ => none
    | (w, rest) => some (.word w, rest)

/-- The form at the front of a template, up to a parenthesis that closes. -/
def sequence? : Nat → List Piece → Option (Form × List Piece)
  | 0, _ => none
  | fuel + 1, ps => match item? fuel ps with
    | some (.word w, .char ' ' :: rest) => (sequence? fuel rest).map fun (f, rest) =>
      (if leads.contains (String.ofList w) then .led w f else .beside (.word w) f, rest)
    | some (first, .char ' ' :: rest) =>
      (sequence? fuel rest).map fun (f, rest) => (.beside first f, rest)
    | some (first, .char ',' :: .char ' ' :: rest) =>
      (sequence? fuel rest).map fun (f, rest) => (.listed first f, rest)
    | found => found

end

/-- The form of a template. -/
def read? (ps : List Piece) : Option Form :=
  ((sequence? (2 * ps.length + 2) ps).filter (·.2.isEmpty)).map (·.1)

end Form

/-! ## Renaming functions -/

/-- Characters that end a word without being a call. -/
def endsWord (c : Char) : Bool :=
  c != '(' && !isNamePart c && !Text.isWordChar c

theorem isNameStart_eq_false {c : Char} (h : isNamePart c = false) : isNameStart c = false := by
  cases start : isNameStart c with
  | false => rfl
  | true => rw [isNamePart_of_isNameStart start] at h; cases h

/-- What stands before the end of a word is renamed by itself, and so is what stands after it. -/
theorem renameFrom_append (d : Dialect) (inWord : Bool) (run front : List Char) {c : Char}
    (hc : endsWord c = true) (rest : List Char) :
    renameFrom d inWord run (front ++ c :: rest) =
      renameFrom d inWord run front ++ c :: renameFrom d false [] rest := by
  simp only [endsWord, Bool.and_eq_true, bne_iff_ne, Bool.not_eq_true'] at hc
  obtain ⟨⟨call, part⟩, word⟩ := hc
  induction front generalizing inWord run with
  | nil =>
    by_cases hrun : run = []
    · simp [renameFrom, hrun, isNameStart_eq_false part, word]
    · rw [List.nil_append, renameFrom_end d inWord hrun part, shownName_of_ne call, word]
      simp [renameFrom]
  | cons e front ih =>
    generalize renameFrom d false [] rest = tail at ih ⊢
    rw [List.cons_append]
    unfold renameFrom
    split
    · split
      · exact ih _ _
      · rw [ih, List.cons_append]
    · split
      · exact ih _ _
      · dsimp only
        rw [ih, List.append_assoc, List.cons_append]

/-- A text without a call is not changed. -/
theorem renameFrom_of_not_mem (d : Dialect) (inWord : Bool) (run : List Char) {cs : List Char}
    (h : '(' ∉ cs) : renameFrom d inWord run cs = run.reverse ++ cs := by
  induction cs generalizing inWord run with
  | nil => simp [renameFrom]
  | cons c cs ih =>
    rw [List.mem_cons, not_or] at h
    have other : (c == '(') = false := beq_eq_false_iff_ne.mpr (Ne.symm h.1)
    unfold renameFrom
    rw [other]
    split
    · next empty =>
      rw [List.isEmpty_iff.mp empty]
      split
      · simp [ih _ _ h.2]
      · simp [ih _ _ h.2]
    · split
      · simp [ih _ _ h.2]
      · simp [ih _ _ h.2]

/-- What is called by a name is called by its name in the dialect. -/
theorem renameFrom_call (d : Dialect) {f : List Char} (hf : isName f = true) (rest : List Char) :
    renameFrom d false [] (f ++ '(' :: rest) =
      shownName d f '(' ++ '(' :: renameFrom d false [] rest := by
  rw [isName, Bool.and_eq_true] at hf
  obtain _ | ⟨c, name⟩ := f
  · cases hf.1
  · have word : Text.isWordChar '(' = false := by decide
    rw [← word]
    refine renameFrom_word d (by simpa using hf.1) (fun e he => ?_) (by decide) rest
    exact List.all_eq_true.mp hf.2 e (List.mem_cons_of_mem c he)

/-- The text of some pieces. -/
def textOf (ps : List Piece) : List Char :=
  ps.flatMap Piece.text

@[simp]
theorem textOf_nil : textOf [] = [] := rfl

@[simp]
theorem textOf_append (ps qs : List Piece) : textOf (ps ++ qs) = textOf ps ++ textOf qs :=
  List.flatMap_append

@[simp]
theorem textOf_char (c : Char) (ps : List Piece) : textOf (.char c :: ps) = c :: textOf ps := rfl

@[simp]
theorem textOf_map_char (cs : List Char) : textOf (cs.map .char) = cs := by
  induction cs with
  | nil => rfl
  | cons c cs ih => rw [List.map_cons, textOf_char, ih]

/-- A word of the texts that are put together is no call and has no brace. -/
theorem plain_words : (fixedWords ++ leads).all (fun w =>
    !w.toList.contains '(' && !w.toList.contains '\x7b') = true := by
  decide +kernel

theorem plain_of_mem {w : List Char} (h : String.ofList w ∈ fixedWords ++ leads) :
    '(' ∉ w ∧ '\x7b' ∉ w := by
  simpa using List.all_eq_true.mp plain_words _ h

theorem not_mem_of_isName {f : List Char} (h : isName f = true) {c : Char}
    (hc : isNamePart c = false) : c ∉ f := by
  intro mem
  rw [isName, Bool.and_eq_true] at h
  rw [List.all_eq_true.mp h.2 c mem] at hc
  cases hc

namespace Form

attribute [local simp] isAllowed

/-- **The form of a template in the words of a dialect** is that of the template, with the functions
renamed. -/
theorem renameFrom_textOf (d : Dialect) {f : Form} (allowed : f.isAllowed = true) :
    renameFrom d false [] (textOf f.pieces) = textOf (f.renamed d).pieces := by
  have space : endsWord ' ' = true := by decide
  have comma : endsWord ',' = true := by decide
  have closing : endsWord ')' = true := by decide
  have opening (cs : List Char) :
      renameFrom d false [] ('(' :: cs) = '(' :: renameFrom d false [] cs := by
    simp [renameFrom, show isNameStart '(' = false by decide,
      show Text.isWordChar '(' = false by decide]
  induction f with
  | hole name =>
    rw [isAllowed, Bool.and_eq_true] at allowed
    have plain := not_mem_of_isName allowed.1 (c := '(') (by decide)
    exact renameFrom_of_not_mem d _ _ (by simpa [pieces, textOf, Piece.text] using plain)
  | word w =>
    have plain := (plain_of_mem (List.mem_append_left _ (by simpa [isAllowed] using allowed))).1
    simpa [pieces, renamed] using renameFrom_of_not_mem d false [] plain
  | led w rest ih =>
    rw [isAllowed, Bool.and_eq_true] at allowed
    have plain := (plain_of_mem (List.mem_append_right _ (by simpa using allowed.1))).1
    have word := renameFrom_of_not_mem d false [] plain
    simpa [pieces, renamed, renameFrom_append d _ _ _ space, ih allowed.2] using word
  | beside first rest ihf ihr =>
    rw [isAllowed, Bool.and_eq_true] at allowed
    simp [pieces, renamed, renameFrom_append d _ _ _ space, ihf allowed.1, ihr allowed.2]
  | listed first rest ihf ihr =>
    rw [isAllowed, Bool.and_eq_true] at allowed
    have after (cs : List Char) :
        renameFrom d false [] (' ' :: cs) = ' ' :: renameFrom d false [] cs :=
      renameFrom_append d false [] [] space cs
    simp [pieces, renamed, renameFrom_append d _ _ _ comma, after, ihf allowed.1, ihr allowed.2]
  | paren inner ih =>
    simp [pieces, renamed, opening, renameFrom_append d _ _ _ closing, ih allowed, renameFrom]
  | applied f inner ih =>
    rw [isAllowed, Bool.and_eq_true] at allowed
    simp [pieces, renamed, renameFrom_call d allowed.1, renameFrom_append d _ _ _ closing,
      ih allowed.2, renameFrom]
  | called f =>
    have closed : renameFrom d false [] [')'] = [')'] := renameFrom_of_not_mem d _ _ (by decide)
    simp [pieces, renamed, renameFrom_call d allowed, closed]
  | filtered => exact renameFrom_of_not_mem d _ _ (by decide)

end Form

/-! ## Pieces of a text -/

/-- A piece that is found in the text of it. -/
def Piece.isPlain : Piece → Bool
  | .char c => c != '\x7b'
  | .hole name => isName name.toList

theorem pieces_eq (template : String) : pieces template = piecesOf template.toList := rfl

/-- The pieces of a text are those that make it up. -/
theorem piecesOf_textOf {ps : List Piece} (h : ∀ p ∈ ps, p.isPlain = true) :
    piecesOf (textOf ps) = ps := by
  induction ps with
  | nil => rfl
  | cons p ps ih =>
    obtain ⟨hp, hps⟩ := List.forall_mem_cons.mp h
    cases p with
    | char c =>
      rw [textOf_char, piecesOf_cons, if_neg (by simpa [Piece.isPlain] using hp), ih hps]
    | hole name =>
      rw [Piece.isPlain, isName, Bool.and_eq_true] at hp
      obtain ⟨chars, rfl⟩ : ∃ chars, name = String.ofList chars :=
        ⟨name.toList, String.ofList_toList.symm⟩
      rw [String.toList_ofList] at hp
      obtain _ | ⟨c, name⟩ := chars
      · cases hp.1
      have text : textOf (.hole (String.ofList (c :: name)) :: ps) =
          '\x7b' :: (c :: name ++ '\x7d' :: textOf ps) := by
        simp [textOf, Piece.text]
      have hole : hole? (c :: name ++ '\x7d' :: textOf ps) = some (c :: name, textOf ps) :=
        hole?_append_eq_some (by simpa using hp.1)
          (fun e he => List.all_eq_true.mp hp.2 e (List.mem_cons_of_mem c he)) _
      rw [text, piecesOf_cons, if_pos rfl, hole]
      dsimp only
      rw [ih hps]

theorem isPlain_map_char {cs : List Char} (h : '\x7b' ∉ cs) :
    ∀ p ∈ cs.map Piece.char, p.isPlain = true := by
  intro p hp
  obtain ⟨c, hc, rfl⟩ := List.mem_map.mp hp
  rw [Piece.isPlain, bne_iff_ne]
  exact fun same => h (same ▸ hc)

theorem isPlain_shownName {d : Dialect} {f : List Char} (h : isName f = true) :
    ∀ p ∈ (shownName d f '(').map Piece.char, p.isPlain = true := by
  rw [isName, Bool.and_eq_true] at h
  refine isPlain_map_char fun mem => ?_
  exact ne_brace_of_isNamePart
    (isNamePart_shownName '(' (fun c hc => List.all_eq_true.mp h.2 c hc) _ mem) rfl

theorem Form.isPlain_renamed (d : Dialect) {f : Form} (allowed : f.isAllowed = true) :
    ∀ p ∈ (f.renamed d).pieces, p.isPlain = true := by
  induction f with
  | hole name =>
    rw [isAllowed, Bool.and_eq_true] at allowed
    simpa [renamed, pieces, Piece.isPlain] using allowed.1
  | word w =>
    exact isPlain_map_char
      (plain_of_mem (List.mem_append_left _ (by simpa [isAllowed] using allowed))).2
  | led w rest ih =>
    rw [isAllowed, Bool.and_eq_true] at allowed
    have word := isPlain_map_char
      (plain_of_mem (List.mem_append_right _ (by simpa using allowed.1))).2
    simp only [renamed, pieces, List.forall_mem_append, List.forall_mem_cons]
    exact ⟨word, rfl, ih allowed.2⟩
  | beside first rest ihf ihr =>
    rw [isAllowed, Bool.and_eq_true] at allowed
    simp only [renamed, pieces, List.forall_mem_append, List.forall_mem_cons]
    exact ⟨ihf allowed.1, rfl, ihr allowed.2⟩
  | listed first rest ihf ihr =>
    rw [isAllowed, Bool.and_eq_true] at allowed
    simp only [renamed, pieces, List.forall_mem_append, List.forall_mem_cons]
    exact ⟨ihf allowed.1, rfl, rfl, ihr allowed.2⟩
  | paren inner ih =>
    simp only [renamed, pieces, List.forall_mem_append, List.forall_mem_cons]
    exact ⟨rfl, ih allowed, rfl, List.forall_mem_nil _⟩
  | applied f inner ih =>
    rw [isAllowed, Bool.and_eq_true] at allowed
    simp only [renamed, pieces, List.forall_mem_append, List.forall_mem_cons]
    exact ⟨isPlain_shownName allowed.1, rfl, ih allowed.2, rfl, List.forall_mem_nil _⟩
  | called f =>
    simp only [renamed, pieces, List.forall_mem_append, List.forall_mem_cons]
    exact ⟨isPlain_shownName allowed, rfl, rfl, List.forall_mem_nil _⟩
  | filtered =>
    simp only [renamed, pieces, List.forall_mem_cons]
    exact ⟨by decide, by decide, List.forall_mem_nil _⟩

theorem Form.hole_mem_renamed {d : Dialect} {f : Form} {name : String} :
    .hole name ∈ (f.renamed d).pieces ↔ .hole name ∈ f.pieces := by
  induction f with
  | hole | word | called | filtered => simp [renamed, pieces]
  | led w rest ih => simp [renamed, pieces, ih]
  | beside first rest ihf ihr | listed first rest ihf ihr => simp [renamed, pieces, ihf, ihr]
  | paren inner ih | applied f inner ih => simp [renamed, pieces, ih]

theorem mem_holesOf {ps : List Piece} {name : String} (h : .hole name ∈ ps) :
    name ∈ holesOf ps := by
  rw [holesOf, List.mem_eraseDups, List.mem_filterMap]
  exact ⟨_, h, rfl⟩

/-! ## Filling a form -/

/-- A value may stand in a hole: it is put together from a vocabulary, but for the condition of a
query, which may be missing. -/
def FillsHole (V : Vocabulary) (name value : String) : Prop :=
  if name = "where" then value = "" ∨ ∃ condition, Composed V condition ∧
    value = " WHERE " ++ condition
  else Composed V value

theorem FillsHole.of_composed {V : Vocabulary} {name value : String} (hname : name ≠ "where")
    (h : Composed V value) : FillsHole V name value := by
  rwa [FillsHole, if_neg hname]

/-- What a query reads from, with its condition. -/
theorem FillsHole.composed_append {V : Vocabulary} {source condition : String}
    (h : FillsHole V "where" condition) (hsource : Composed V source) :
    Composed V (source ++ condition) := by
  rw [FillsHole, if_pos rfl] at h
  rcases h with rfl | ⟨condition, hcondition, rfl⟩
  · simpa using hsource
  · rw [show source ++ (" WHERE " ++ condition) = source ++ " " ++ "WHERE" ++ " " ++ condition by
      simp [← String.toList_inj]]
    exact hsource.infixed (by simp [leads]) hcondition

/-- A template with its holes filled. -/
def filled (value : String → Option String) (ps : List Piece) : String :=
  String.ofList (ps.flatMap (fillPiece value))

section Filled

variable {V : Vocabulary} {value : String → Option String}

@[simp]
theorem filled_nil : filled value [] = "" := rfl

@[simp]
theorem filled_append (ps qs : List Piece) :
    filled value (ps ++ qs) = filled value ps ++ filled value qs := by
  simp [filled]

@[simp]
theorem filled_char (c : Char) (ps : List Piece) :
    filled value (.char c :: ps) = String.singleton c ++ filled value ps := by
  simp [filled, fillPiece]

@[simp]
theorem filled_hole (name : String) (ps : List Piece) :
    filled value (.hole name :: ps) = (value name).getD "" ++ filled value ps := by
  simp [filled, fillPiece]

@[simp]
theorem filled_map_char (cs : List Char) : filled value (cs.map .char) = String.ofList cs := by
  induction cs with
  | nil => rfl
  | cons c cs ih =>
    rw [List.map_cons, filled_char, ih]
    simp

/-- Without holes there is nothing to fill. -/
theorem filled_of_no_hole {ps : List Piece} (h : ∀ name, .hole name ∉ ps) :
    filled value ps = String.ofList (textOf ps) := by
  induction ps with
  | nil => rfl
  | cons p ps ih =>
    have rest := ih fun name mem => h name (List.mem_cons_of_mem _ mem)
    cases p with
    | char c => simp [rest]
    | hole name => exact absurd List.mem_cons_self (h name)

/-- **A form with its holes filled** is put together from the vocabulary of the values, in every
dialect. -/
theorem Form.composed_fill (d : Dialect) {f : Form} (allowed : f.isAllowed = true)
    (h : ∀ name, .hole name ∈ (f.renamed d).pieces →
      ∃ v, value name = some v ∧ FillsHole V name v) :
    Composed V (filled value (f.renamed d).pieces) := by
  have function {f : List Char} (hf : isName f = true) :
      V.function (String.ofList (shownName d f '(')) := by
    rw [isName, Bool.and_eq_true] at hf
    refine V.function_of_run ?_
    rw [String.toList_ofList, List.all_eq_true]
    exact isNamePart_shownName '(' fun c hc => List.all_eq_true.mp hf.2 c hc
  induction f with
  | hole name =>
    obtain ⟨v, hv, fills⟩ := h name (by simp [renamed, pieces])
    rw [isAllowed, Bool.and_eq_true] at allowed
    rw [FillsHole, if_neg (by simpa using allowed.2)] at fills
    simpa [renamed, pieces, hv] using fills
  | word w =>
    rw [renamed, pieces, filled_map_char]
    exact .fixed (by simpa [isAllowed] using allowed)
  | led w rest ih =>
    rw [isAllowed, Bool.and_eq_true] at allowed
    have hrest := ih allowed.2 fun name hole => h name (by simp [renamed, pieces, hole])
    have text : filled value (Form.renamed d (.led w rest)).pieces =
        String.ofList w ++ " " ++ filled value (rest.renamed d).pieces := by
      simp [renamed, pieces, ← String.toList_inj]
    rw [text]
    exact .led (by simpa using allowed.1) hrest
  | beside first rest ihf ihr =>
    rw [isAllowed, Bool.and_eq_true] at allowed
    have hfirst := ihf allowed.1 fun name hole => h name (by simp [renamed, pieces, hole])
    have hrest := ihr allowed.2 fun name hole => h name (by simp [renamed, pieces, hole])
    have text : filled value (Form.renamed d (.beside first rest)).pieces =
        filled value (first.renamed d).pieces ++ " " ++ filled value (rest.renamed d).pieces := by
      simp [renamed, pieces, ← String.toList_inj]
    rw [text]
    exact hfirst.beside hrest
  | listed first rest ihf ihr =>
    rw [isAllowed, Bool.and_eq_true] at allowed
    have hfirst := ihf allowed.1 fun name hole => h name (by simp [renamed, pieces, hole])
    have hrest := ihr allowed.2 fun name hole => h name (by simp [renamed, pieces, hole])
    have text : filled value (Form.renamed d (.listed first rest)).pieces =
        filled value (first.renamed d).pieces ++ ", " ++ filled value (rest.renamed d).pieces := by
      simp [renamed, pieces, ← String.toList_inj]
    rw [text]
    exact hfirst.listed hrest
  | paren inner ih =>
    have hinner := ih allowed fun name hole => h name (by simp [renamed, pieces, hole])
    have text : filled value (Form.renamed d (.paren inner)).pieces =
        "(" ++ filled value (inner.renamed d).pieces ++ ")" := by
      simp [renamed, pieces, ← String.toList_inj]
    rw [text]
    exact hinner.paren
  | applied f inner ih =>
    rw [isAllowed, Bool.and_eq_true] at allowed
    have hinner := ih allowed.2 fun name hole => h name (by simp [renamed, pieces, hole])
    have text : filled value (Form.renamed d (.applied f inner)).pieces =
        String.ofList (shownName d f '(') ++
          "(" ++ filled value (inner.renamed d).pieces ++ ")" := by
      simp [renamed, pieces, ← String.toList_inj]
    rw [text]
    exact .applied (function allowed.1) hinner
  | called f =>
    have text : filled value (Form.renamed d (.called f)).pieces =
        String.ofList (shownName d f '(') ++ "()" := by
      simp [renamed, pieces]
    rw [text]
    exact .called (function allowed)
  | filtered =>
    obtain ⟨source, hsource, fills⟩ := h "from" (by simp [renamed, pieces])
    obtain ⟨c, hc, condition⟩ := h "where" (by simp [renamed, pieces])
    rw [FillsHole, if_neg (by decide)] at fills
    have text : filled value (Form.renamed d .filtered).pieces = source ++ c := by
      simp [renamed, pieces, hsource, hc]
    rw [text]
    exact condition.composed_append fills

end Filled

/-- Does the text have a form with the words that SQL is put together from? -/
def isComposed (cs : List Char) : Bool :=
  (Form.read? (piecesOf cs)).any fun f => f.isAllowed && textOf f.pieces == cs

theorem exists_form {cs : List Char} (h : isComposed cs = true) :
    ∃ f : Form, f.isAllowed = true ∧ textOf f.pieces = cs := by
  unfold isComposed at h
  cases read : Form.read? (piecesOf cs) with
  | none => simp [read] at h
  | some f => exact ⟨f, by simpa [read] using h⟩

end Template

/-! ## The catalog -/

namespace Catalog

open Template Text

/-- Is the pattern put together as all SQL is?  A default counts if it fills a hole. -/
def isComposed (p : Pattern) : Bool :=
  Template.isComposed (asciiChars p.template)
    && p.defaults.all (fun default =>
      !(holesOf (piecesOf (asciiChars p.template))).contains default.1
        || (bytes default.2).all (· < 0x80) && !(asciiChars default.2).contains '\x7b'
          && Template.isComposed (asciiChars default.2))
    && !p.params.contains "where" && !(p.defaults.map (·.1)).contains "where"
    && p.separator.all separators.contains

/-- The catalog, evaluated. -/
theorem builtin_isComposed : builtin.all isComposed = true := by
  decide +kernel

section Composed

variable {V : Vocabulary} {p : Pattern} {d : Dialect} {b : Bindings}

theorem mem_of_lookup {b : Bindings} {name value : String} (h : b.lookup name = some value) :
    (name, value) ∈ b := by
  obtain ⟨front, back, rfl, -⟩ := List.lookup_eq_some_iff.mp h
  simp

theorem exists_form_of_mem (hp : p ∈ builtin) :
    ∃ f : Form, f.isAllowed = true ∧ textOf f.pieces = p.template.toList := by
  have ascii := List.all_eq_true.mp builtin_isSettled p hp
  have composed := List.all_eq_true.mp builtin_isComposed p hp
  simp only [isComposed, Bool.and_eq_true] at ascii composed
  rw [toList_eq_asciiChars ascii.1.1.1]
  exact exists_form composed.1.1.1.1

/-- A default that fills a hole is put together from any vocabulary. -/
theorem composed_default (hp : p ∈ builtin) {default : String × String}
    (hdefault : default ∈ p.defaults) (hole : default.1 ∈ Template.holes p.template) :
    Composed V (renameFunctions d default.2) := by
  have composed := List.all_eq_true.mp builtin_isComposed p hp
  simp only [isComposed, Bool.and_eq_true] at composed
  have checked := List.all_eq_true.mp composed.1.1.1.2 default hdefault
  simp only [← holes_of_mem hp, List.contains_iff_mem.mpr hole, Bool.not_true, Bool.false_or,
    Bool.and_eq_true] at checked
  obtain ⟨⟨plain, noBrace⟩, read⟩ := checked
  rw [← toList_eq_asciiChars plain] at noBrace read
  obtain ⟨f, allowed, text⟩ := exists_form read
  have noHole : ∀ name, .hole name ∉ (f.renamed d).pieces := by
    intro name mem
    rw [Form.hole_mem_renamed] at mem
    have brace : '\x7b' ∈ textOf f.pieces :=
      List.mem_flatMap.mpr ⟨_, mem, List.mem_cons_self⟩
    rw [text] at brace
    simp [brace] at noBrace
  have whole : Composed V (filled (fun _ => none) (f.renamed d).pieces) :=
    Form.composed_fill d allowed fun name mem => absurd mem (noHole name)
  rw [filled_of_no_hole noHole, ← Form.renameFrom_textOf d allowed, text] at whole
  exact whole

/-- Every value fills its hole. -/
def AllFill (V : Vocabulary) (b : Bindings) : Prop :=
  ∀ x ∈ b, FillsHole V x.1 x.2

/-- **The SQL of a pattern of the catalog** is put together from the vocabulary of the values that
are bound to its holes. -/
theorem composed_render (hp : p ∈ builtin) (hb : AllFill V b) {sql : String}
    (h : p.render d b = .ok sql) : Composed V sql := by
  obtain ⟨f, allowed, text⟩ := exists_form_of_mem hp
  have shown : pieces (renameFunctions d p.template) = (f.renamed d).pieces := by
    rw [pieces_eq, renameFunctions, String.toList_ofList, ← text, Form.renameFrom_textOf d allowed,
      piecesOf_textOf (Form.isPlain_renamed d allowed)]
  rw [Pattern.render, fill] at h
  split at h
  · cases h
  · next full =>
    have text : sql = filled (p.valueOf d b) (pieces (renameFunctions d p.template)) :=
      (Except.ok.inj h).symm
    rw [text, shown]
    refine Form.composed_fill d allowed fun name hole => ?_
    have mem : name ∈ holes (renameFunctions d p.template) := by
      rw [holes, shown]
      exact mem_holesOf hole
    have given := List.find?_eq_none.mp full name mem
    obtain ⟨v, hv⟩ : ∃ v, p.valueOf d b name = some v :=
      Option.ne_none_iff_exists'.mp (by simpa using given)
    refine ⟨v, hv, ?_⟩
    rw [Pattern.valueOf, Option.or_eq_some_iff, Option.map_eq_some_iff] at hv
    rcases hv with bound | ⟨-, default, hdefault, rfl⟩
    · exact hb (name, v) (mem_of_lookup bound)
    · have mem' : (name, default) ∈ p.defaults := mem_of_lookup hdefault
      have other : name ≠ "where" := by
        rintro rfl
        have composed := List.all_eq_true.mp builtin_isComposed p hp
        simp only [isComposed, Bool.and_eq_true, Bool.not_eq_true'] at composed
        exact Bool.false_ne_true (composed.1.2.symm.trans
          (List.contains_iff_mem.mpr (List.mem_map_of_mem mem')))
      rw [FillsHole, if_neg other]
      rw [holes_renameFunctions] at mem
      have whole : Composed V (renameFunctions d (name, default).2) := composed_default hp mem' mem
      exact whole

theorem AllFill.insert (hb : AllFill V b) {name value : String} (h : FillsHole V name value) :
    AllFill V (b.insert name value) := by
  intro x hx
  rcases List.mem_append.mp hx with hx | hx
  · exact hb x (List.mem_filter.mp hx).1
  · exact List.mem_singleton.mp hx ▸ h

theorem AllFill.give {b : BoundArgs} (hb : AllFill V b.bindings) (defaults : Bindings)
    {param : String} (hparam : param ≠ "where") {value : Option String}
    (hvalue : ∀ v ∈ value, Composed V v) : AllFill V (b.give defaults param value).bindings := by
  have fills {v : String} (hv : Composed V v) : FillsHole V param v := .of_composed hparam hv
  cases value with
  | some v => exact hb.insert (fills (hvalue v rfl))
  | none =>
    unfold BoundArgs.give
    dsimp only
    split
    · exact hb
    · exact hb.insert (fills (.fixed (by simp [fixedWords])))

theorem AllFill.bindFrom {b : BoundArgs} (hb : AllFill V b.bindings) (params args : List String)
    (hparams : "where" ∉ params) (hargs : ∀ a ∈ args, Composed V a)
    (hsep : ∀ sep ∈ p.separator, sep ∈ separators) :
    AllFill V (p.bindFrom params args b).bindings := by
  fun_induction Pattern.bindFrom p params args b with
  | case1 args b => exact hb
  | case2 param args b sep found =>
    refine hb.give _ (by simpa [eq_comm] using hparams) fun v hv => ?_
    split at hv
    · cases hv
    · next nonempty =>
      obtain rfl := Option.some.inj hv
      exact .intercalate (hsep sep found) (by simpa using nonempty) hargs
  | case3 param args b found =>
    exact hb.give _ (by simpa [eq_comm] using hparams) fun v hv =>
      hargs v (List.mem_of_mem_head? hv)
  | case4 param params args b hne ih =>
    rw [List.mem_cons, not_or] at hparams
    exact ih (hb.give _ (Ne.symm hparams.1) fun v hv => hargs v (List.mem_of_mem_head? hv))
      hparams.2 fun a ha => hargs a (List.mem_of_mem_tail ha)

/-- **The arguments of a call** fill the holes of its pattern. -/
theorem allFill_bind (hp : p ∈ builtin) {args : List String} (h : ∀ a ∈ args, Composed V a) :
    AllFill V (p.bind args).bindings := by
  have composed := List.all_eq_true.mp builtin_isComposed p hp
  simp only [isComposed, Bool.and_eq_true, Bool.not_eq_true'] at composed
  refine AllFill.bindFrom (b := {}) (fun x hx => nomatch hx) _ _
    (by simpa using composed.1.1.2) h ?_
  intro sep hsep
  have known := composed.2
  rw [Option.mem_def.mp hsep] at known
  simpa using known

end Composed

end Catalog

end MeasureSql
