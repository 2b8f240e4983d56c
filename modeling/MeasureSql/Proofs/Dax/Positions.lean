import Mathlib.Data.List.DropRight
import MeasureSql.Proofs.Dax.Truncation

/-!
# Where tokens and errors stand

Tokenizing counts lines and columns as it goes.  What it counts depends on nothing but the text
before a place: the line is told by the line breaks in that text, and the column by the characters
behind the last of them.

Line and column can also be found from the offset alone.  An index of a source keeps the offsets at
which its lines begin; a search by halves finds the line of an offset, and the characters between
the beginning of the line and the offset are its column.

## Main definitions

* `Counts` — a position counts the text before it.
* `LineIndex`, `LineIndex.locate?` — line and column of an offset.
* `Located` — a position counts the text before it, and is found by its offset.

## Main results

* `Counts.advance` — what is passed is counted.
* `LineIndex.locate?_of_counts` — the index finds what is counted.
* `tokenize_located` — the positions of all tokens and errors.
-/

namespace MeasureSql.Dax

/-! ## Counting -/

/-- Does the line go on with the character? -/
def staysInLine (c : Char) : Bool :=
  c != '\n'

/-- **A position counts the text before it**: its line breaks, the characters behind the last one,
and its bytes. -/
structure Counts (before : List Char) (p : Position) : Prop where
  line : p.line = 1 + before.count '\n'
  column : p.column = 1 + (before.rtakeWhile staysInLine).length
  offset : p.offset = byteCount before

theorem counts_start : Counts [] .start := ⟨rfl, rfl, rfl⟩

/-- One more character is counted. -/
theorem Counts.step {before : List Char} {p : Position} (h : Counts before p) (c : Char) :
    Counts (before ++ [c]) (p.step c) := by
  have offset : (p.step c).offset = byteCount (before ++ [c]) := by
    rw [offset_step, h.offset]
    simp
  by_cases broken : c = '\n'
  · subst broken
    refine ⟨?_, ?_, offset⟩
    · change p.line + 1 = _
      rw [h.line, List.count_append]
      rfl
    · rw [List.rtakeWhile_concat_neg _ _ _ (by decide)]
      rfl
  · have stays : staysInLine c = true := by simpa [staysInLine] using broken
    have next : p.step c = ⟨p.line, p.column + 1, p.offset + c.utf8Size⟩ := by
      simp [Position.step, broken]
    refine ⟨?_, ?_, offset⟩
    · have other : [c].count '\n' = 0 := List.count_singleton.trans (if_neg (by simpa using broken))
      rw [next, List.count_append, other, Nat.add_zero]
      exact h.line
    · rw [next, List.rtakeWhile_concat_pos _ _ _ stays, List.length_append]
      change p.column + 1 = _
      rw [h.column]
      rfl

/-- **What is passed is counted.** -/
theorem Counts.advance {before : List Char} {p : Position} (h : Counts before p) (cs : List Char) :
    Counts (before ++ cs) (p.advance cs) := by
  induction cs generalizing before p with
  | nil => simpa [Position.advance] using h
  | cons c cs ih =>
    have passed := ih (h.step c)
    rwa [List.append_assoc] at passed

/-- Every token stands behind some of the text. -/
theorem Lexed.exists_advance {p : Position} {cs : List Char} {tokens : List Token}
    (h : Lexed p cs tokens) :
    ∀ t ∈ tokens, ∃ passed rest, cs = passed ++ rest ∧ t.position = p.advance passed := by
  have beyond {p : Position} {s : Scan} {cs : List Char} {tokens : List Token}
      (whole : s.taken ++ s.rest = cs)
      (later : ∀ t ∈ tokens, ∃ passed rest, s.rest = passed ++ rest ∧
        t.position = (p.advance s.taken).advance passed) :
      ∀ t ∈ tokens, ∃ passed rest, cs = passed ++ rest ∧ t.position = p.advance passed := by
    intro t ht
    obtain ⟨passed, rest, left, place⟩ := later t ht
    refine ⟨s.taken ++ passed, rest, by rw [List.append_assoc, ← left, whole], ?_⟩
    rw [place, Position.advance, Position.advance, Position.advance, List.foldl_append]
  induction h with
  | done =>
    intro t ht
    obtain rfl := List.mem_singleton.mp ht
    exact ⟨[], [], rfl, rfl⟩
  | trivia found _ ih => exact beyond (splits_nextTrivia? found).append ih
  | token significant found _ ih =>
    intro t ht
    rcases List.mem_cons.mp ht with rfl | ht
    · exact ⟨[], _, rfl, rfl⟩
    · exact beyond (tokenRule_of_nextToken? found).splits.append ih t ht

/-! ## An index of lines -/

/-- The offsets behind the line breaks of a text that begins at an offset. -/
def breaksFrom (offset : Nat) : List Char → List Nat
  | [] => []
  | c :: cs =>
    if c == '\n' then (offset + 1) :: breaksFrom (offset + c.utf8Size) cs
    else breaksFrom (offset + c.utf8Size) cs

/-- Cuts a text off behind a number of bytes, if a character ends there. -/
def splitBytes? (n : Nat) : List Char → Option (List Char × List Char)
  | [] => if n = 0 then some ([], []) else none
  | c :: cs =>
    if n = 0 then some ([], c :: cs)
    else if c.utf8Size ≤ n then
      (splitBytes? (n - c.utf8Size) cs).map fun (front, rest) => (c :: front, rest)
    else none

/-- Looks for a number among those from `lo` to `hi` of a rising list, by halves: its place, or else
the place at which it would be put in. -/
def search (xs : List Nat) (x lo hi : Nat) : Except Nat Nat :=
  if lo < hi then
    match xs[(lo + hi) / 2]? with
    | none => .error lo
    | some y =>
      if y = x then .ok ((lo + hi) / 2)
      else if y < x then search xs x ((lo + hi) / 2 + 1) hi
      else search xs x lo ((lo + hi) / 2)
  else .error lo
termination_by hi - lo

/-- A source with the offsets at which its lines begin. -/
structure LineIndex where
  source : List Char
  starts : List Nat

namespace LineIndex

/-- The index of a source. -/
def of (source : String) : LineIndex :=
  ⟨source.toList, 0 :: breaksFrom 0 source.toList⟩

/-- The line of an offset, counted from zero: the one that begins there, or the one before the place
where a line beginning there would be put in. -/
def line? (index : LineIndex) (offset : Nat) : Option Nat :=
  match search index.starts offset 0 index.starts.length with
  | .ok i => some i
  | .error 0 => none
  | .error (i + 1) => some i

/-- The characters between two offsets, if characters begin at both. -/
def slice? (index : LineIndex) (start stop : Nat) : Option (List Char) := do
  let (_, later) ← splitBytes? start index.source
  let (slice, _) ← splitBytes? (stop - start) later
  some slice

/-- Line and column of an offset. -/
def locate? (index : LineIndex) (offset : Nat) : Option Position := do
  let line ← index.line? offset
  let start ← index.starts[line]?
  some ⟨line + 1, ((index.slice? start offset).map List.length).getD 0 + 1, offset⟩

end LineIndex

section Breaks

variable (offset : Nat) (cs ds : List Char)

theorem breaksFrom_append :
    breaksFrom offset (cs ++ ds) =
      breaksFrom offset cs ++ breaksFrom (offset + byteCount cs) ds := by
  induction cs generalizing offset with
  | nil => rfl
  | cons c cs ih =>
    rw [List.cons_append, breaksFrom, breaksFrom, ih, byteCount_cons, Nat.add_assoc]
    split
    · rfl
    · rfl

theorem length_breaksFrom : (breaksFrom offset cs).length = cs.count '\n' := by
  induction cs generalizing offset with
  | nil => rfl
  | cons c cs ih =>
    rw [breaksFrom, List.count_cons]
    split
    · rw [List.length_cons, ih]
    · rw [ih, Nat.add_zero]

variable {offset cs}

/-- A line break lies between the ends of the text. -/
theorem mem_breaksFrom {n : Nat} (h : n ∈ breaksFrom offset cs) :
    offset < n ∧ n ≤ offset + byteCount cs := by
  induction cs generalizing offset with
  | nil => cases h
  | cons c cs ih =>
    have size := c.utf8Size_pos
    rw [byteCount_cons]
    rw [breaksFrom] at h
    split at h
    · rcases List.mem_cons.mp h with rfl | later
      · omega
      · have := ih later
        omega
    · have := ih h
      omega

variable (offset cs)

theorem pairwise_breaksFrom : (breaksFrom offset cs).Pairwise (· < ·) := by
  induction cs generalizing offset with
  | nil => exact .nil
  | cons c cs ih =>
    rw [breaksFrom]
    split
    · refine .cons ?_ (ih _)
      intro n hn
      have := mem_breaksFrom hn
      have := c.utf8Size_pos
      omega
    · exact ih _

/-- The last line begins behind all that stands before it. -/
theorem getLast_breaksFrom :
    (offset :: breaksFrom offset cs).getLast (List.cons_ne_nil _ _) =
      offset + byteCount (cs.rdropWhile staysInLine) := by
  induction cs using List.reverseRecOn with
  | nil => rfl
  | append_singleton cs c ih =>
    by_cases broken : c = '\n'
    · subst broken
      rw [List.rdropWhile_concat_neg _ _ _ (by decide), byteCount_append]
      have last : breaksFrom (offset + byteCount cs) ['\n'] = [offset + byteCount cs + 1] := rfl
      simp only [breaksFrom_append, last, ← List.cons_append, List.getLast_append_singleton]
      rfl
    · have none : breaksFrom (offset + byteCount cs) [c] = [] := by simp [breaksFrom, broken]
      have stays : staysInLine c = true := by simpa [staysInLine] using broken
      simp only [breaksFrom_append, none, List.append_nil, ih,
        List.rdropWhile_concat_pos _ _ _ stays]

end Breaks

theorem splitBytes?_append (front rest : List Char) :
    splitBytes? (byteCount front) (front ++ rest) = some (front, rest) := by
  induction front with
  | nil => cases rest <;> rfl
  | cons c front ih =>
    have size := c.utf8Size_pos
    have more : ¬ c.utf8Size + byteCount front = 0 := by omega
    rw [List.cons_append, splitBytes?, byteCount_cons, if_neg more,
      if_pos (Nat.le_add_right _ _), Nat.add_sub_cancel_left, ih]
    rfl

/-- In a rising list nothing stands before the least number. -/
theorem eq_zero_of_least {xs : List Nat} {x i : Nat} (rising : xs.Pairwise (· < ·))
    (least : ∀ y ∈ xs, x ≤ y) (here : xs[i]? = some x) : i = 0 := by
  cases i with
  | zero => rfl
  | succ i =>
    obtain _ | ⟨y, xs⟩ := xs
    · cases here
    have before : y < x := List.rel_of_pairwise_cons rising (List.mem_of_getElem? here)
    have := least y List.mem_cons_self
    omega

/-- **The search by halves** finds the first number that is not too small. -/
theorem search_append {below rest : List Nat} {x lo hi : Nat}
    (rising : rest.Pairwise (· < ·)) (low : ∀ y ∈ below, y < x) (high : ∀ y ∈ rest, x ≤ y)
    (least : lo ≤ below.length) (most : below.length ≤ hi)
    (there : rest.head? = some x → below.length < hi) (inside : hi ≤ (below ++ rest).length) :
    search (below ++ rest) x lo hi =
      if rest.head? = some x then .ok below.length else .error below.length := by
  generalize whole : below ++ rest = xs at inside ⊢
  have small {i y : Nat} (at_i : xs[i]? = some y) (before : i < below.length) : y < x := by
    rw [← whole, List.getElem?_append_left before] at at_i
    exact low y (List.mem_of_getElem? at_i)
  have large {i y : Nat} (at_i : xs[i]? = some y) (behind : below.length ≤ i) :
      rest[i - below.length]? = some y := by
    rwa [← whole, List.getElem?_append_right behind] at at_i
  fun_induction search xs x lo hi with
  | case1 lo hi more none =>
    rw [List.getElem?_eq_none_iff] at none
    omega
  | case2 lo hi more found =>
    have behind : below.length ≤ (lo + hi) / 2 := by
      by_contra before
      exact Nat.lt_irrefl x (small found (by omega))
    have here := large found behind
    have first : (lo + hi) / 2 - below.length = 0 := eq_zero_of_least rising high here
    rw [first, ← List.head?_eq_getElem?] at here
    rw [if_pos here]
    exact congrArg _ (by omega)
  | case3 lo hi more y found other less ih =>
    have before : (lo + hi) / 2 < below.length := by
      by_contra behind
      have := high y (List.mem_of_getElem? (large found (by omega)))
      omega
    exact ih before most there inside
  | case4 lo hi more y found other less ih =>
    have behind : below.length ≤ (lo + hi) / 2 := by
      by_contra before
      exact less (small found (by omega))
    refine ih least behind ?_ (by omega)
    -- the number in the middle is too great, so it is not the first one
    intro first
    by_contra last
    have here := large found behind
    rw [show (lo + hi) / 2 - below.length = 0 by omega, ← List.head?_eq_getElem?, first] at here
    exact other (Option.some.inj here).symm
  | case5 lo hi more =>
    have none : ¬ rest.head? = some x := fun first => by
      have := there first
      omega
    rw [if_neg none]
    exact congrArg _ (by omega)

/-- The whole list is searched. -/
theorem search_eq {below rest : List Nat} {x : Nat} (rising : rest.Pairwise (· < ·))
    (low : ∀ y ∈ below, y < x) (high : ∀ y ∈ rest, x ≤ y) :
    search (below ++ rest) x 0 (below ++ rest).length =
      if rest.head? = some x then .ok below.length else .error below.length := by
  refine search_append rising low high (Nat.zero_le _) (by simp) ?_ (Nat.le_refl _)
  intro first
  have := List.length_pos_of_mem (List.mem_of_head? first)
  rw [List.length_append]
  omega

namespace LineIndex

/-- The line of an offset is the last one that begins at it or before. -/
theorem line?_append {index : LineIndex} {front back : List Nat} {start x : Nat}
    (starts : index.starts = front ++ start :: back) (rising : index.starts.Pairwise (· < ·))
    (least : start ≤ x) (high : ∀ y ∈ back, x < y) : index.line? x = some front.length := by
  rw [starts] at rising
  obtain ⟨-, later, before⟩ := List.pairwise_append.mp rising
  have low (y : Nat) (hy : y ∈ front) : y < x :=
    Nat.lt_of_lt_of_le (before y hy start List.mem_cons_self) least
  rcases Nat.eq_or_lt_of_le least with rfl | less
  · have found := search_eq later low fun y hy => by
      rcases List.mem_cons.mp hy with rfl | hy
      · exact Nat.le_refl _
      · exact Nat.le_of_lt (high y hy)
    rw [← starts, List.head?_cons, if_pos rfl] at found
    rw [line?, found]
  · have none : ¬ back.head? = some x := fun first =>
      Nat.lt_irrefl x (high x (List.mem_of_head? first))
    have found : search ((front ++ [start]) ++ back) x 0 ((front ++ [start]) ++ back).length = _ :=
      search_eq later.tail (by simpa [or_imp, forall_and, less] using low) fun y hy =>
        Nat.le_of_lt (high y hy)
    rw [← List.append_cons, ← starts, if_neg none, List.length_append] at found
    rw [line?, found]
    rfl

theorem slice?_append {index : LineIndex} {front line rest : List Char}
    (whole : index.source = front ++ (line ++ rest)) :
    index.slice? (byteCount front) (byteCount (front ++ line)) = some line := by
  rw [slice?, whole, splitBytes?_append, byteCount_append, Nat.add_sub_cancel_left]
  change ((splitBytes? (byteCount line) (line ++ rest)).bind fun cut => some cut.1) = some line
  rw [splitBytes?_append]
  rfl

/-- **The index finds what is counted.** -/
theorem locate?_of_counts {source : String} {before after : List Char} {p : Position}
    (whole : source.toList = before ++ after) (h : Counts before p) :
    (LineIndex.of source).locate? p.offset = some p := by
  have last := getLast_breaksFrom 0 before
  generalize hline : before.rdropWhile staysInLine = passed at last
  rw [Nat.zero_add] at last
  -- the lines that begin in the text before the place, and those that begin behind it
  have starts : (LineIndex.of source).starts =
      (0 :: breaksFrom 0 before).dropLast ++ byteCount passed ::
        breaksFrom (byteCount before) after := by
    rw [List.append_cons, ← last, List.dropLast_append_getLast, of, whole, breaksFrom_append,
      Nat.zero_add, List.cons_append]
  have rising : (LineIndex.of source).starts.Pairwise (· < ·) :=
    .cons (fun n hn => (mem_breaksFrom hn).1) (pairwise_breaksFrom 0 _)
  have cut : passed ++ before.rtakeWhile staysInLine = before := by
    rw [← hline, List.rdropWhile_append_rtakeWhile]
  have line : (LineIndex.of source).line? p.offset = some (before.count '\n') := by
    rw [h.offset, line?_append starts rising, List.length_dropLast, List.length_cons,
      length_breaksFrom, Nat.add_sub_cancel]
    · rw [← cut, byteCount_append]
      omega
    · exact fun y hy => (mem_breaksFrom hy).1
  have start : (LineIndex.of source).starts[before.count '\n']? = some (byteCount passed) := by
    rw [starts, ← length_breaksFrom 0 before]
    simp
  have slice : (LineIndex.of source).slice? (byteCount passed) p.offset =
      some (before.rtakeWhile staysInLine) := by
    have source_eq : (LineIndex.of source).source =
        passed ++ (before.rtakeWhile staysInLine ++ after) := by
      rw [← List.append_assoc, cut]
      exact whole
    have found := slice?_append source_eq
    rwa [cut, ← h.offset] at found
  rw [locate?, line, Option.bind_eq_bind, Option.bind_some, start, Option.bind_some, slice,
    Option.map_some, Option.getD_some, Nat.add_comm, ← h.line, Nat.add_comm, ← h.column]

end LineIndex

/-! ## Positions in a source -/

/-- **A position of a source** counts the text before it, and is found in the index of the source by
its offset. -/
structure Located (source : String) (p : Position) : Prop where
  counted : ∃ before after : String, source = before ++ after ∧ Counts before.toList p
  indexed : (LineIndex.of source).locate? p.offset = some p

/-- Where some of a source is passed is a position of it. -/
theorem located_advance {source : String} {passed rest : List Char}
    (whole : source.toList = passed ++ rest) : Located source (Position.start.advance passed) := by
  have counts : Counts passed (Position.start.advance passed) := counts_start.advance passed
  refine ⟨⟨.ofList passed, .ofList rest, ?_, by rwa [String.toList_ofList]⟩,
    LineIndex.locate?_of_counts whole counts⟩
  simp [← String.toList_inj, whole]

/-- **Positions are right.**  Every token of a source, the end of input included, and every error
stands at a position of the source: its offset is the number of bytes before it, its line is told by
the line breaks and its column by the characters behind the last of them, and an index of the lines
gives the same line and column for that offset. -/
theorem tokenize_located (source : String) :
    match tokenize source with
    | .ok tokens => ∀ t ∈ tokens, Located source t.position
    | .error e => Located source e.position := by
  split
  · next tokens h =>
    intro t ht
    obtain ⟨passed, rest, whole, place⟩ := (lexed_of_tokensFrom h).exists_advance t ht
    rw [place]
    exact located_advance whole
  · next e h =>
    obtain ⟨passed, rest, whole, place, -⟩ := cuts_of_tokensFrom_eq_error (Nat.le_refl _) h
    rw [place]
    exact located_advance whole

/-- An empty line, and the place behind a letter of two bytes. -/
example : (LineIndex.of "[é]\n\n é+").locate? 5 = some ⟨2, 1, 5⟩ ∧
    (LineIndex.of "[é]\n\n é+").locate? 9 = some ⟨3, 3, 9⟩ := by
  decide +kernel

end MeasureSql.Dax
