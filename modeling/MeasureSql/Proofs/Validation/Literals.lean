import MeasureSql.Proofs.Validation.Blanks
import MeasureSql.Proofs.Validation.Parentheses

/-!
# What normalization does to literals

Runs of blanks are collapsed wherever they stand.  Outside quoted literals this leaves the words as
they were.  Inside a literal the blanks are part of the value, and they are collapsed all the same;
so a text that is looked at and run is the text that was given exactly when there was nothing to
collapse in any of its literals.

## Main definitions

* `collapse` — characters with a space for each run of blanks.
* `Piece`, `pieces` — a text as plain characters and literals.
* `visible` — a text without the blanks outside its literals.
* `SingleSpaced` — no blanks but spaces that stand alone.

## Main results

* `exists_collapse_eq` — words are the collapsed text, but for blanks at its ends.
* `literal_mem_pieces_iff` — where the literals of a text are.
* `visible_collapse` — collapsing a text collapses its literals.
* `checked_as_written_iff` — when a text is checked and run as it is written.
-/

namespace MeasureSql

namespace Text

/-! ## Collapsed text -/

/-- Characters with a space for each run of blanks. -/
def collapse : List Char → List Char
  | [] => []
  | c :: cs =>
    if isBlank c then if cs.head?.any isBlank then collapse cs else ' ' :: collapse cs
    else c :: collapse cs

/-- No blanks but spaces that stand alone. -/
structure SingleSpaced (cs : List Char) : Prop where
  spaces : ∀ c ∈ cs, isBlank c = true → c = ' '
  alone : ¬[' ', ' '] <:+: cs

section Collapse

variable {c d : Char} {cs : List Char}

theorem collapse_cons_of_printed (hc : isBlank c = false) (cs : List Char) :
    collapse (c :: cs) = c :: collapse cs := by
  simp [collapse, hc]

/-- The last of several blanks is a space. -/
theorem collapse_cons_of_alone (hc : isBlank c = true) (alone : cs.head?.any isBlank = false) :
    collapse (c :: cs) = ' ' :: collapse cs := by
  simp [collapse, hc, alone]

/-- **A printed character keeps what stands before it from what stands behind it.** -/
theorem collapse_append_cons (hc : isBlank c = false) (xs ys : List Char) :
    collapse (xs ++ c :: ys) = collapse xs ++ c :: collapse ys := by
  induction xs with
  | nil => exact collapse_cons_of_printed hc ys
  | cons x xs ih =>
    have next : (xs ++ c :: ys).head?.any isBlank = xs.head?.any isBlank := by
      cases xs with
      | nil => simp [hc]
      | cons x' xs => rfl
    rw [List.cons_append, collapse, collapse, next, ih]
    split
    · split <;> rfl
    · rfl

/-- Blanks become spaces, and nothing else is new. -/
theorem mem_of_mem_collapse (hd : d ≠ ' ') (mem : d ∈ collapse cs) : d ∈ cs := by
  induction cs with
  | nil => exact mem
  | cons c cs ih =>
    rw [collapse] at mem
    split at mem
    · split at mem
      · exact List.mem_cons_of_mem c (ih mem)
      · exact List.mem_cons_of_mem c (ih ((List.mem_cons.mp mem).resolve_left hd))
    · rcases List.mem_cons.mp mem with rfl | mem
      · exact List.mem_cons_self
      · exact List.mem_cons_of_mem c (ih mem)

theorem length_collapse_le (cs : List Char) : (collapse cs).length ≤ cs.length := by
  induction cs with
  | nil => exact Nat.le_refl _
  | cons c cs ih =>
    rw [collapse]
    split
    · split <;> simp only [List.length_cons] <;> omega
    · simp only [List.length_cons]
      omega

/-- A character is single-spaced when it is printed, or a space with a printed one behind it. -/
theorem singleSpaced_cons : SingleSpaced (c :: cs) ↔
    (isBlank c = true → c = ' ' ∧ cs.head?.any isBlank = false) ∧ SingleSpaced cs := by
  constructor
  · intro h
    refine ⟨fun hc => ?_, fun d hd => h.spaces d (List.mem_cons_of_mem c hd), fun inside =>
      h.alone (inside.trans (List.suffix_cons c cs).isInfix)⟩
    obtain rfl := h.spaces c List.mem_cons_self hc
    refine ⟨rfl, Bool.eq_false_iff.mpr fun next => ?_⟩
    obtain _ | ⟨d, cs⟩ := cs
    · cases next
    · obtain rfl := h.spaces d (by simp) (by simpa using next)
      exact h.alone (List.prefix_append [' ', ' '] cs).isInfix
  · rintro ⟨first, h⟩
    refine ⟨fun d hd blank => ?_, fun inside => ?_⟩
    · rcases List.mem_cons.mp hd with rfl | hd
      · exact (first blank).1
      · exact h.spaces d hd blank
    · rcases List.infix_cons_iff.mp inside with front | inside
      · obtain ⟨rest, same⟩ := front
        simp only [List.cons_append, List.cons.injEq] at same
        obtain ⟨rfl, rfl⟩ := same
        exact absurd (first (by decide)).2 (by simp; decide)
      · exact h.alone inside

/-- A collapsed text has the same characters but for blanks. -/
theorem filter_collapse (cs : List Char) :
    (collapse cs).filter (!isBlank ·) = cs.filter (!isBlank ·) := by
  have space : isBlank ' ' = true := by decide
  induction cs with
  | nil => rfl
  | cons c cs ih =>
    rw [collapse]
    split
    · next hc => split <;> simp [hc, space, ih]
    · next hc => simp [hc, ih]

/-- **A text without blanks to collapse** is left as it is. -/
theorem collapse_eq_self_iff : collapse cs = cs ↔ SingleSpaced cs := by
  induction cs with
  | nil => exact ⟨fun _ => ⟨by simp, by simp⟩, fun _ => rfl⟩
  | cons c cs ih =>
    rw [singleSpaced_cons, ← ih]
    cases hc : isBlank c with
    | false => simp [collapse_cons_of_printed hc]
    | true =>
      cases next : cs.head?.any isBlank with
      | false => simp [collapse_cons_of_alone hc next, eq_comm]
      | true =>
        have shorter := length_collapse_le cs
        have dropped : collapse (c :: cs) = collapse cs := by simp [collapse, hc, next]
        refine ⟨fun same => ?_, fun same => absurd (same.1 rfl).2 (by decide)⟩
        rw [← dropped, same, List.length_cons] at shorter
        omega

end Collapse

/-! ## Words -/

/-- A character is the first of a word that goes on. -/
theorem runs_cons_cons {c d : Char} (hc : isBlank c = false) (hd : isBlank d = false)
    (cs : List Char) : ∃ word more, runs (d :: cs) = word :: more ∧
      runs (c :: d :: cs) = (c :: word) :: more := by
  obtain ⟨word, more, split⟩ := List.exists_cons_of_ne_nil (List.splitOnP_ne_nil isBlank cs)
  refine ⟨d :: word, more.filter (!·.isEmpty), ?_, ?_⟩
  · simp [runs, List.splitOnP_cons_eq_if_modifyHead, hd, split]
  · simp [runs, List.splitOnP_cons_eq_if_modifyHead, hc, hd, split]

/-- A character before a blank is a word of its own. -/
theorem runs_cons_cons_of_blank {c d : Char} (hc : isBlank c = false) (hd : isBlank d = true)
    (cs : List Char) : runs (c :: d :: cs) = [c] :: runs (d :: cs) := by
  have word : runs [c] = [[c]] := runs_of_printed (by simpa using hc) (by simp)
  have first := runs_append_cons hd [c] cs
  have rest := runs_append_cons hd [] cs
  rw [List.singleton_append, word] at first
  rw [List.nil_append] at rest
  rw [first, rest]
  rfl

/-- A blank at the front belongs to no word. -/
theorem runs_cons_of_blank {c : Char} (hc : isBlank c = true) (cs : List Char) :
    runs (c :: cs) = runs cs := by
  have rest := runs_append_cons hc [] cs
  rw [List.nil_append] at rest
  rw [rest]
  rfl

/-- The words of a text are printed, and none is empty. -/
theorem printed_of_mem_runs {cs word : List Char} (mem : word ∈ runs cs) :
    word ≠ [] ∧ ∀ c ∈ word, isBlank c = false := by
  refine ⟨?_, fun c hc => ?_⟩
  · rintro rfl
    simp [runs] at mem
  · have inside : c ∈ (runs cs).flatten := List.mem_flatten.mpr ⟨word, mem, hc⟩
    rw [flatten_runs] at inside
    simpa using (List.mem_filter.mp inside).2

/-- **Words with a space between any two are the words.** -/
theorem runs_intercalate {ws : List (List Char)}
    (printed : ∀ w ∈ ws, w ≠ [] ∧ ∀ c ∈ w, isBlank c = false) :
    runs ([' '].intercalate ws) = ws := by
  induction ws with
  | nil => rfl
  | cons w ws ih =>
    obtain ⟨⟨ne, letters⟩, more⟩ := List.forall_mem_cons.mp printed
    have word := runs_of_printed letters ne
    cases ws with
    | nil => simpa using word
    | cons w' ws =>
      rw [List.intercalate_cons_cons, List.append_assoc, List.singleton_append,
        runs_append_cons (by decide), word, ih more]
      rfl

/-- **Words with a space between any two are the collapsed text**, but for blanks at its ends.  A
space stands at the front exactly when the text begins with a blank; the induction needs to know
this of what is behind a word. -/
theorem exists_collapse_eq (cs : List Char) :
    ∃ trail, (∀ c ∈ trail, isBlank c = true) ∧
      collapse cs =
        (if cs.head?.any isBlank then [' '] else []) ++ [' '].intercalate (runs cs) ++ trail := by
  induction cs with
  | nil => exact ⟨[], by simp, rfl⟩
  | cons c cs ih =>
    obtain ⟨trail, blank, same⟩ := ih
    cases hc : isBlank c with
    | true =>
      -- Either the blank is dropped and a space is in front already, or it becomes that space.
      refine ⟨trail, blank, ?_⟩
      rw [runs_cons_of_blank hc]
      cases next : cs.head?.any isBlank with
      | true => simpa [collapse, hc, next] using same
      | false => simpa [collapse, hc, next] using same
    | false =>
      rw [collapse_cons_of_printed hc, same]
      obtain _ | ⟨d, cs⟩ := cs
      · refine ⟨trail, blank, ?_⟩
        have word : runs [c] = [[c]] := runs_of_printed (by simpa using hc) (by simp)
        rw [word]
        simp [runs, hc]
      · cases hd : isBlank d with
        | false =>
          obtain ⟨word, more, first, whole⟩ := runs_cons_cons hc hd cs
          refine ⟨trail, blank, ?_⟩
          rw [first, whole]
          cases more <;> simp [List.intercalate_cons_cons, hc, hd]
        | true =>
          rw [runs_cons_cons_of_blank hc hd]
          cases words : runs (d :: cs) with
          | nil =>
            -- No word comes any more, so the space belongs to the end.
            exact ⟨' ' :: trail, by simpa using ⟨by decide, blank⟩, by simp [hc, hd]⟩
          | cons word more =>
            exact ⟨trail, blank, by simp [List.intercalate_cons_cons, hc, hd]⟩

end Text

namespace Validation

open Text

/-- **A normalized text has the same words.** -/
theorem runs_normalize (sql : String) : runs (normalize sql).toList = runs sql.toList := by
  rw [toList_normalize, runs_intercalate fun _ => printed_of_mem_runs]

/-- **Normalizing twice is normalizing once.** -/
theorem normalize_normalize (sql : String) : normalize (normalize sql) = normalize sql := by
  rw [← String.toList_inj, toList_normalize, runs_normalize, ← toList_normalize]

/-! ## Pieces -/

/-- A piece of a text. -/
inductive Piece where
  | plain (c : Char)
  /-- A quoted text, by its quote and what stands in it. -/
  | literal (mark : Char) (content : List Char)
  deriving DecidableEq, Repr

namespace Piece

/-- Is the piece a blank outside literals? -/
def isBlank : Piece → Bool
  | .plain c => Text.isBlank c
  | .literal _ _ => false

/-- A piece with the blanks of a literal collapsed. -/
def collapsed : Piece → Piece
  | .plain c => .plain c
  | .literal mark content => .literal mark (collapse content)

@[simp]
theorem isBlank_plain (c : Char) : (plain c).isBlank = Text.isBlank c := rfl

@[simp]
theorem isBlank_literal (mark : Char) (content : List Char) :
    (literal mark content).isBlank = false := rfl

end Piece

/-- The pieces of a text, with the quote that is open and what stands behind it.  A quote that is
not closed is no literal. -/
def piecesFrom : Option (Char × List Char) → List Char → List Piece
  | none, [] => []
  | some (mark, content), [] => (mark :: content).map .plain
  | none, c :: cs =>
    if isQuote c then piecesFrom (some (c, [])) cs else .plain c :: piecesFrom none cs
  | some (mark, content), c :: cs =>
    if c == mark then .literal mark content :: piecesFrom none cs
    else piecesFrom (some (mark, content ++ [c])) cs

/-- The pieces of a text. -/
def pieces (cs : List Char) : List Piece :=
  piecesFrom none cs

/-- A text without the blanks outside its literals. -/
def visible (cs : List Char) : List Piece :=
  (pieces cs).filter (!·.isBlank)

section Pieces

variable {mark c : Char} {content cs : List Char}

theorem pieces_plain (hc : isQuote c = false) (cs : List Char) :
    pieces (c :: cs) = .plain c :: pieces cs := by
  simp [pieces, piecesFrom, hc]

/-- What is read behind a quote belongs to the literal until the quote comes again. -/
theorem piecesFrom_append (taken : List Char) (first : mark ∉ content) (cs : List Char) :
    piecesFrom (some (mark, taken)) (content ++ cs) =
      piecesFrom (some (mark, taken ++ content)) cs := by
  induction content generalizing taken with
  | nil => simp
  | cons c content ih =>
    rw [List.mem_cons, not_or] at first
    have other : c ≠ mark := Ne.symm first.1
    rw [List.cons_append, piecesFrom, if_neg (by simpa using other), ih _ first.2,
      List.append_assoc, List.singleton_append]

theorem pieces_literal (hq : isQuote mark = true) (first : mark ∉ content) (cs : List Char) :
    pieces (mark :: (content ++ mark :: cs)) = .literal mark content :: pieces cs := by
  rw [pieces, piecesFrom, if_pos hq, piecesFrom_append [] first, piecesFrom]
  simp [pieces]

theorem pieces_opened (hq : isQuote mark = true) (first : mark ∉ content) :
    pieces (mark :: content) = (mark :: content).map .plain := by
  have whole := piecesFrom_append [] first []
  rw [List.append_nil, List.nil_append] at whole
  rw [pieces, piecesFrom, if_pos hq, whole, piecesFrom]

/-- A text is read piece by piece, and at the end there may be a quote that is not closed. -/
@[elab_as_elim]
theorem piece_induction {motive : List Char → Prop} (nil : motive [])
    (plain : ∀ c cs, isQuote c = false → motive cs → motive (c :: cs))
    (literal : ∀ mark content cs, isQuote mark = true → mark ∉ content → motive cs →
      motive (mark :: (content ++ mark :: cs)))
    (opened : ∀ mark content, isQuote mark = true → mark ∉ content → motive (mark :: content))
    (cs : List Char) : motive cs := by
  obtain ⟨n, hn⟩ : ∃ n, cs.length = n := ⟨_, rfl⟩
  induction n using Nat.strongRecOn generalizing cs with
  | _ n ih =>
    cases cs with
    | nil => exact nil
    | cons c cs =>
      rw [List.length_cons] at hn
      cases hc : isQuote c with
      | false => exact plain c cs hc (ih _ (by omega) cs rfl)
      | true =>
        by_cases closed : c ∈ cs
        · obtain ⟨content, rest, rfl, first⟩ := List.eq_append_cons_of_mem closed
          rw [List.length_append, List.length_cons] at hn
          exact literal c content rest hc first (ih _ (by omega) rest rfl)
        · exact opened c cs hc closed

/-- A text has a literal: a quote opens it where a text outside quotes ends, and the same quote
closes it where it comes again. -/
def HasLiteral (cs : List Char) (mark : Char) (content : List Char) : Prop :=
  ∃ before after, cs = before ++ mark :: (content ++ mark :: after) ∧ Unquoted before ∧
    isQuote mark = true ∧ mark ∉ content

/-- A mark comes first at one place only. -/
theorem first_unique {xs ys xs' ys' : List Char} (hx : mark ∉ xs) (hy : mark ∉ ys)
    (same : xs ++ mark :: xs' = ys ++ mark :: ys') : xs = ys ∧ xs' = ys' := by
  induction xs generalizing ys with
  | nil =>
    obtain _ | ⟨y, ys⟩ := ys
    · exact ⟨rfl, (List.cons.inj same).2⟩
    · obtain ⟨rfl, -⟩ := List.cons.inj same
      exact absurd List.mem_cons_self hy
  | cons x xs ih =>
    obtain _ | ⟨y, ys⟩ := ys
    · obtain ⟨rfl, -⟩ := List.cons.inj same
      exact absurd List.mem_cons_self hx
    · obtain ⟨rfl, more⟩ := List.cons.inj same
      obtain ⟨rfl, rest⟩ := ih (fun mem => hx (List.mem_cons_of_mem x mem))
        (fun mem => hy (List.mem_cons_of_mem x mem)) more
      exact ⟨rfl, rest⟩

theorem hasLiteral_plain (hc : isQuote c = false) :
    HasLiteral (c :: cs) mark content ↔ HasLiteral cs mark content := by
  constructor
  · rintro ⟨before, after, same, outside, hq, first⟩
    obtain _ | ⟨d, before⟩ := before
    · obtain ⟨rfl, -⟩ := List.cons.inj same
      cases hc.symm.trans hq
    · obtain ⟨rfl, rfl⟩ := List.cons.inj same
      cases outside with
      | plain _ h => exact ⟨before, after, rfl, h, hq, first⟩
      | quoted hq' => cases hc.symm.trans hq'
  · rintro ⟨before, after, rfl, outside, hq, first⟩
    exact ⟨c :: before, after, rfl, .plain hc outside, hq, first⟩

theorem hasLiteral_literal {mark' : Char} {content' : List Char} (hq' : isQuote mark' = true)
    (first' : mark' ∉ content') :
    HasLiteral (mark' :: (content' ++ mark' :: cs)) mark content ↔
      mark = mark' ∧ content = content' ∨ HasLiteral cs mark content := by
  constructor
  · rintro ⟨before, after, same, outside, hq, first⟩
    obtain _ | ⟨d, before⟩ := before
    · obtain ⟨rfl, more⟩ := List.cons.inj same
      exact .inl ⟨rfl, (first_unique first first' more.symm).1⟩
    · obtain ⟨rfl, more⟩ := List.cons.inj same
      cases outside with
      | plain hd => cases hd.symm.trans hq'
      | @quoted _ inside rest _ first'' h =>
        obtain ⟨-, rfl⟩ := first_unique first' first'' (more.trans (List.append_assoc ..))
        exact .inr ⟨rest, after, rfl, h, hq, first⟩
  · rintro (⟨rfl, rfl⟩ | ⟨before, after, rfl, outside, hq, first⟩)
    · exact ⟨[], cs, rfl, .nil, hq', first'⟩
    · exact ⟨mark' :: (content' ++ mark' :: before), after, by simp, .quoted hq' first' outside, hq,
        first⟩

theorem not_hasLiteral_opened {mark' : Char} {content' : List Char} (hq' : isQuote mark' = true)
    (first' : mark' ∉ content') : ¬HasLiteral (mark' :: content') mark content := by
  rintro ⟨before, after, same, outside, -, -⟩
  obtain _ | ⟨d, before⟩ := before
  · obtain ⟨rfl, rfl⟩ := List.cons.inj same
    exact first' (by simp)
  · obtain ⟨rfl, rfl⟩ := List.cons.inj same
    cases outside with
    | plain hd => cases hd.symm.trans hq'
    | quoted => exact first' (by simp)

/-- **Where the literals of a text are.** -/
theorem literal_mem_pieces_iff :
    .literal mark content ∈ pieces cs ↔ HasLiteral cs mark content := by
  induction cs using piece_induction with
  | nil =>
    refine ⟨(nomatch ·), ?_⟩
    rintro ⟨before, after, same, -⟩
    cases before <;> cases same
  | plain c cs hc ih => simp [pieces_plain hc, hasLiteral_plain hc, ih]
  | literal mark' content' cs hq first ih =>
    simp [pieces_literal hq first, hasLiteral_literal hq first, ih]
  | opened mark' content' hq first =>
    simp [pieces_opened hq first, not_hasLiteral_opened hq first]

/-! ## Blanks outside literals -/

theorem isQuote_of_isBlank {c : Char} (hc : isBlank c = true) : isQuote c = false := by
  refine Bool.eq_false_iff.mpr fun hq => ?_
  simp only [isQuote, Bool.or_eq_true, beq_iff_eq] at hq
  rcases hq with rfl | rfl <;> cases hc

theorem isBlank_of_isQuote {c : Char} (hq : isQuote c = true) : isBlank c = false :=
  Bool.eq_false_iff.mpr fun hc => by simp [isQuote_of_isBlank hc] at hq

theorem visible_cons_of_blank (hc : isBlank c = true) (cs : List Char) :
    visible (c :: cs) = visible cs := by
  simp [visible, pieces_plain (isQuote_of_isBlank hc), hc]

theorem visible_cons_of_printed (hc : isBlank c = false) (plain : isQuote c = false)
    (cs : List Char) : visible (c :: cs) = .plain c :: visible cs := by
  simp [visible, pieces_plain plain, hc]

theorem visible_literal (hq : isQuote mark = true) (first : mark ∉ content) (cs : List Char) :
    visible (mark :: (content ++ mark :: cs)) = .literal mark content :: visible cs := by
  simp [visible, pieces_literal hq first]

/-- Behind a quote that is not closed all blanks are outside literals. -/
theorem visible_opened (hq : isQuote mark = true) (first : mark ∉ content) :
    visible (mark :: content) = .plain mark :: (content.filter (!isBlank ·)).map .plain := by
  simp [visible, pieces_opened hq first, isBlank_of_isQuote hq, List.filter_map,
    Function.comp_def]

theorem visible_concat_of_blank (hc : isBlank c = true) (cs : List Char) :
    visible (cs ++ [c]) = visible cs := by
  induction cs using piece_induction with
  | nil => exact visible_cons_of_blank hc []
  | plain d cs hd ih =>
    cases blank : isBlank d with
    | true => rw [List.cons_append, visible_cons_of_blank blank, visible_cons_of_blank blank, ih]
    | false =>
      rw [List.cons_append, visible_cons_of_printed blank hd, visible_cons_of_printed blank hd, ih]
  | literal mark content cs hq first ih =>
    rw [List.cons_append, List.append_assoc, List.cons_append, visible_literal hq first,
      visible_literal hq first, ih]
  | opened mark content hq first =>
    have other : mark ≠ c := by
      rintro rfl
      cases hc.symm.trans (isBlank_of_isQuote hq)
    rw [List.cons_append, visible_opened hq (by simp [first, other]), visible_opened hq first]
    simp [hc]

theorem visible_append_of_blank {trail : List Char} (blank : ∀ c ∈ trail, isBlank c = true)
    (cs : List Char) : visible (cs ++ trail) = visible cs := by
  induction trail generalizing cs with
  | nil => rw [List.append_nil]
  | cons c trail ih =>
    obtain ⟨hc, more⟩ := List.forall_mem_cons.mp blank
    rw [← List.singleton_append, ← List.append_assoc, ih more, visible_concat_of_blank hc]

/-- A collapsed text holds no quote that was not there. -/
theorem not_mem_collapse (hq : isQuote mark = true) (first : mark ∉ content) :
    mark ∉ collapse content := by
  refine fun mem => first (mem_of_mem_collapse ?_ mem)
  rintro rfl
  cases hq

/-- **Collapsing a text collapses its literals** and leaves everything else but blanks. -/
theorem visible_collapse (cs : List Char) :
    visible (collapse cs) = (visible cs).map Piece.collapsed := by
  induction cs using piece_induction with
  | nil => rfl
  | plain c cs hc ih =>
    cases blank : isBlank c with
    | true =>
      rw [visible_cons_of_blank blank, ← ih, collapse, if_pos blank]
      split
      · rfl
      · exact visible_cons_of_blank (by decide) _
    | false =>
      rw [collapse_cons_of_printed blank, visible_cons_of_printed blank hc,
        visible_cons_of_printed blank hc, ih]
      rfl
  | literal mark content cs hq first ih =>
    have printed := isBlank_of_isQuote hq
    rw [collapse_cons_of_printed printed, collapse_append_cons printed,
      visible_literal hq (not_mem_collapse hq first), visible_literal hq first, ih]
    rfl
  | opened mark content hq first =>
    -- There is no literal here, and blanks are all that is lost.
    rw [collapse_cons_of_printed (isBlank_of_isQuote hq),
      visible_opened hq (not_mem_collapse hq first), visible_opened hq first, filter_collapse]
    simp [Piece.collapsed]

/-- A normalized text has its literals collapsed. -/
theorem visible_normalize (sql : String) :
    visible (normalize sql).toList = (visible sql.toList).map Piece.collapsed := by
  obtain ⟨trail, blank, same⟩ := exists_collapse_eq sql.toList
  rw [← visible_collapse, same, visible_append_of_blank blank, ← toList_normalize]
  split
  · exact (visible_cons_of_blank (by decide) _).symm
  · rfl

/-- The literals are left alone exactly when there is nothing to collapse in them. -/
theorem visible_normalize_iff (sql : String) :
    visible (normalize sql).toList = visible sql.toList ↔
      ∀ mark content, HasLiteral sql.toList mark content → SingleSpaced content := by
  have same : (visible sql.toList).map Piece.collapsed = visible sql.toList ↔
      ∀ piece ∈ visible sql.toList, piece.collapsed = piece := by
    rw [← List.map_inj_left, List.map_id']
  rw [visible_normalize, same]
  constructor
  · intro kept mark content literal
    have mem : Piece.literal mark content ∈ visible sql.toList :=
      List.mem_filter.mpr ⟨literal_mem_pieces_iff.mpr literal, rfl⟩
    exact collapse_eq_self_iff.mp (Piece.literal.inj (kept _ mem)).2
  · rintro single (c | ⟨mark, content⟩) mem
    · rfl
    · have literal := literal_mem_pieces_iff.mp (List.mem_filter.mp mem).1
      rw [Piece.collapsed, collapse_eq_self_iff.mpr (single mark content literal)]

end Pieces

/-! ## Comments -/

section Comments

variable {c : Char} {cs : List Char}

theorem ne_dash_of_isBlank (hc : isBlank c = true) : c ≠ '-' := by
  rintro rfl
  cases hc

theorem holdsLineComment_cons (c : Char) (cs : List Char) :
    holdsLineComment (c :: cs) = (c == '-' && cs.head? == some '-' || holdsLineComment cs) := by
  by_cases dash : c = '-'
  · obtain rfl := dash
    obtain _ | ⟨d, cs⟩ := cs
    · rfl
    · by_cases dash' : d = '-'
      · simp [holdsLineComment, dash']
      · simp [holdsLineComment, dash']
  · simp [holdsLineComment, dash]

theorem holdsLineComment_cons_of_blank (hc : isBlank c = true) (cs : List Char) :
    holdsLineComment (c :: cs) = holdsLineComment cs := by
  simp [holdsLineComment_cons, ne_dash_of_isBlank hc]

/-- Collapsing moves no dash to the front. -/
theorem head?_collapse (cs : List Char) :
    ((collapse cs).head? == some '-') = (cs.head? == some '-') := by
  induction cs with
  | nil => rfl
  | cons c cs ih =>
    rw [collapse]
    split
    · next hc =>
      split
      · next blank =>
        rw [ih]
        obtain _ | ⟨d, cs⟩ := cs
        · cases blank
        · simp [ne_dash_of_isBlank hc, ne_dash_of_isBlank (show isBlank d = true from blank)]
      · simp [ne_dash_of_isBlank hc]
    · rfl

theorem holdsLineComment_collapse (cs : List Char) :
    holdsLineComment (collapse cs) = holdsLineComment cs := by
  induction cs with
  | nil => rfl
  | cons c cs ih =>
    cases hc : isBlank c with
    | true =>
      rw [holdsLineComment_cons_of_blank hc, ← ih, collapse, if_pos hc]
      split
      · rfl
      · exact holdsLineComment_cons_of_blank (by decide) _
    | false =>
      rw [collapse_cons_of_printed hc, holdsLineComment_cons, holdsLineComment_cons, ih,
        head?_collapse]

theorem holdsLineComment_append_of_blank {trail : List Char}
    (blank : ∀ c ∈ trail, isBlank c = true) (cs : List Char) :
    holdsLineComment (cs ++ trail) = holdsLineComment cs := by
  induction cs with
  | nil =>
    induction trail with
    | nil => rfl
    | cons c trail ih =>
      obtain ⟨hc, more⟩ := List.forall_mem_cons.mp blank
      rw [List.nil_append, holdsLineComment_cons_of_blank hc]
      exact ih more
  | cons c cs ih =>
    have next : ((cs ++ trail).head? == some '-') = (cs.head? == some '-') := by
      obtain _ | ⟨d, cs⟩ := cs
      · obtain _ | ⟨d, trail⟩ := trail
        · rfl
        · simp [ne_dash_of_isBlank (blank d List.mem_cons_self)]
      · rfl
    rw [List.cons_append, holdsLineComment_cons, holdsLineComment_cons, ih, next]

/-- **Two dashes in a row are neither made nor lost.** -/
theorem holdsLineComment_normalize (sql : String) :
    holdsLineComment (normalize sql).toList = holdsLineComment sql.toList := by
  obtain ⟨trail, blank, same⟩ := exists_collapse_eq sql.toList
  rw [← holdsLineComment_collapse sql.toList, same, holdsLineComment_append_of_blank blank,
    ← toList_normalize]
  split
  · exact (holdsLineComment_cons_of_blank (by decide) _).symm
  · rfl

end Comments

/-! ## What is checked and run -/

/-- Nothing but the normalized text matters. -/
theorem check_normalize (v : Validator) (sql : String) (o : ValidationOptions) :
    v.check (normalize sql) o = v.check sql o := by
  rw [Validator.check, Validator.check, normalize_normalize, commentIssues, commentIssues,
    holdsLineComment_normalize]

/-- **When a text is checked and run as it is written.**  Whatever parser and warehouse the
validator has, the checks and the trial see the normalized text alone, and normalizing it again
changes nothing.  It has the same words, and without the blanks outside literals it is the same text
with the blanks in its literals collapsed.  So it differs from the text that was given in blanks
outside literals only, exactly when no literal holds a blank but spaces that stand alone. -/
theorem checked_as_written_iff (v : Validator) (sql : String) (o : ValidationOptions) :
    (v.check (normalize sql) o = v.check sql o ∧ ∀ trial ∈ v.trials sql o,
      trial = (v.dialect.limited (normalize sql) o.rowLimit, o.rowLimit)) ∧
    normalize (normalize sql) = normalize sql ∧
    runs (normalize sql).toList = runs sql.toList ∧
    visible (normalize sql).toList = (visible sql.toList).map Piece.collapsed ∧
    (visible (normalize sql).toList = visible sql.toList ↔
      ∀ mark content, HasLiteral sql.toList mark content → SingleSpaced content) := by
  refine ⟨⟨check_normalize v sql o, fun trial mem => ?_⟩, normalize_normalize sql,
    runs_normalize sql, visible_normalize sql, visible_normalize_iff sql⟩
  rw [Validator.trials] at mem
  split at mem
  · exact List.mem_singleton.mp mem
  · cases mem

/-- Two spaces in a literal become one, and another query is run. -/
example :
    Validator.trials { backend := some fun _ _ => {} } "SELECT 'a  b'" { execute := true } =
      [("SELECT * FROM (SELECT 'a b') t LIMIT 1", 1)] := by
  decide +kernel

end Validation

end MeasureSql
