import Mathlib.Data.Option.Basic
import MeasureSql.Proofs.Dax.Layout

/-!
# Rules that a cut does not change

A rule looks at what follows its piece only to see where the piece ends, so a text that is cut off
behind a piece begins with the same piece.  What was left open, a bracket or a comment, is left open
before a cut as well.  This holds of a rule with all its alternatives when it holds of each of them.
Quoted texts are not among these rules: a mark that closes a text is half of an escaped mark where
the same mark follows.

## Main definitions

* `Steady` — a rule that a cut behind its piece does not change.
* `scanUnquoted?` — the rules for all tokens but quoted texts.

## Main results

* `Steady.orElse` — one steady rule or another.
* `steady_scanUnquoted?` — the rules for tokens.
* `steady_nextTrivia?` — the rules for blanks and comments.
-/

namespace MeasureSql.Dax

open Text

/-- A rule finds its piece again when the text is cut off somewhere behind it, and applies to no
text that is cut off from one to which it does not apply. -/
structure Steady {α : Type} (rule : List Char → Option (α × Scan)) : Prop where
  again {cs left cut : List Char} {a : α} {s : Scan} (found : rule cs = some (a, s))
    (behind : s.rest = left ++ cut) : rule (s.taken ++ left) = some (a, ⟨s.taken, left⟩)
  still {left cut : List Char} (fails : rule (left ++ cut) = none) : rule left = none
  splits {cs : List Char} {a : α} {s : Scan} (found : rule cs = some (a, s)) : s.Splits cs

/-- A rule whose pieces all have one kind. -/
def tagged {α : Type} (a : α) (rule : List Char → Option Scan) (cs : List Char) :
    Option (α × Scan) :=
  (rule cs).map (a, ·)

section Rules

variable {α : Type} {a : α} {rule : List Char → Option Scan}
  {first second : List Char → Option (α × Scan)}

theorem tagged_eq_none {cs : List Char} : tagged a rule cs = none ↔ rule cs = none :=
  Option.map_eq_none_iff

theorem steady_tagged
    (again : ∀ {cs left cut : List Char} {s : Scan}, rule cs = some s → s.rest = left ++ cut →
      rule (s.taken ++ left) = some ⟨s.taken, left⟩)
    (still : ∀ {left cut : List Char}, rule (left ++ cut) = none → rule left = none)
    (splits : ∀ {cs : List Char} {s : Scan}, rule cs = some s → s.Splits cs) :
    Steady (tagged a rule) where
  again {cs left cut b s} found behind := by
    obtain ⟨q, found, same⟩ := Option.map_eq_some_iff.mp found
    cases same
    rw [tagged, again found behind]
    rfl
  still fails := tagged_eq_none.mpr (still (tagged_eq_none.mp fails))
  splits {cs b s} found := by
    obtain ⟨q, found, same⟩ := Option.map_eq_some_iff.mp found
    cases same
    exact splits found

/-- Of two steady rules the second applies where the first does not. -/
theorem Steady.orElse (h : Steady first) (h' : Steady second) :
    Steady fun cs => first cs <|> second cs where
  again {cs left cut a s} found behind := by
    cases here : first cs with
    | some found' =>
      rw [here] at found
      cases found
      rw [h.again here behind]
      rfl
    | none =>
      rw [here] at found
      have whole := (h'.splits found).append
      rw [behind, ← List.append_assoc] at whole
      rw [← whole] at here
      rw [h.still here]
      exact h'.again found behind
  still {left cut} fails := by
    obtain ⟨fails, fails'⟩ := (Option.orElse_eq_none _ _).mp fails
    exact (Option.orElse_eq_none _ _).mpr ⟨h.still fails, h'.still fails'⟩
  splits {cs a s} found := by
    rcases (Option.orElse_eq_some _ _ _).mp found with found | ⟨-, found⟩
    · exact h.splits found
    · exact h'.splits found

end Rules

/-- What holds of the first character holds of it before a cut. -/
theorem head?_of_cut {P : Char → Prop} {left cut : List Char}
    (h : ∀ c ∈ (left ++ cut).head?, P c) : ∀ c ∈ left.head?, P c := by
  cases left with
  | nil => simp
  | cons d left => exact h

/-! ## Runs -/

/-- One character or more that satisfy a condition. -/
def scanRun? (p : Char → Bool) (cs : List Char) : Option Scan :=
  let s := Scan.takeWhile p cs
  if s.taken.isEmpty then none else some s

section Runs

variable {p : Char → Bool} {cs left cut : List Char} {s : Scan}

theorem dropWhile_ends (p : Char → Bool) (cs : List Char) :
    ∀ c ∈ (cs.dropWhile p).head?, p c = false := by
  intro c hc
  have no := List.head?_dropWhile_not p cs
  rw [Option.mem_def.mp hc] at no
  simpa using no

/-- A run that was taken is taken again. -/
theorem takeWhile_again (behind : cs.dropWhile p = left ++ cut) :
    Scan.takeWhile p (cs.takeWhile p ++ left) = ⟨cs.takeWhile p, left⟩ :=
  takeWhile_run (fun _ hc => List.all_eq_true.mp List.all_takeWhile _ hc)
    (head?_of_cut (behind ▸ dropWhile_ends p cs))

/-- A run begins with its first character. -/
theorem scanRun?_eq_none : scanRun? p cs = none ↔ ∀ c ∈ cs.head?, p c = false := by
  cases cs with
  | nil => simp [scanRun?, Scan.takeWhile]
  | cons c cs => cases hc : p c <;> simp [scanRun?, Scan.takeWhile, hc]

theorem scanRun?_eq_some (h : scanRun? p cs = some s) :
    s = Scan.takeWhile p cs ∧ s.taken ≠ [] := by
  unfold scanRun? at h
  dsimp only at h
  split at h
  · cases h
  · next nonempty =>
    cases h
    exact ⟨rfl, by simpa using nonempty⟩

theorem scanRun?_again (found : scanRun? p cs = some s) (behind : s.rest = left ++ cut) :
    scanRun? p (s.taken ++ left) = some ⟨s.taken, left⟩ := by
  obtain ⟨rfl, nonempty⟩ := scanRun?_eq_some found
  have run : Scan.takeWhile p ((Scan.takeWhile p cs).taken ++ left) = ⟨_, left⟩ :=
    takeWhile_again behind
  rw [scanRun?, run]
  simpa [Scan.takeWhile] using nonempty

theorem scanRun?_still (fails : scanRun? p (left ++ cut) = none) : scanRun? p left = none :=
  scanRun?_eq_none.mpr (head?_of_cut (scanRun?_eq_none.mp fails))

end Runs

/-! ## Numbers -/

section Numbers

variable {cs left cut : List Char} {s : Scan}

theorem scanDigits?_eq_scanRun? (cs : List Char) : scanDigits? cs = scanRun? Char.isDigit cs :=
  rfl

theorem scanDigits?_ends (found : scanDigits? cs = some s) :
    ∀ c ∈ s.rest.head?, c.isDigit = false := by
  obtain ⟨rfl, -⟩ := scanRun?_eq_some found
  exact dropWhile_ends _ _

/-- No exponent is begun by a cut. -/
theorem scanExponent?_still (fails : scanExponent? (left ++ cut) = none) :
    scanExponent? left = none := by
  obtain _ | ⟨c, left⟩ := left
  · rfl
  simp only [List.cons_append, scanExponent?] at fails ⊢
  split
  · next letter =>
    rw [if_pos letter] at fails
    split
    · exact Option.map_eq_none_iff.mpr (scanRun?_still (Option.map_eq_none_iff.mp fails))
    · exact Option.map_eq_none_iff.mpr (scanRun?_still (Option.map_eq_none_iff.mp fails))
    · next plus minus =>
      obtain _ | ⟨d, left⟩ := left
      · rfl
      · split at fails
        · next same => exact absurd (List.cons.inj same).1 fun h => plus left (h ▸ rfl)
        · next same => exact absurd (List.cons.inj same).1 fun h => minus left (h ▸ rfl)
        · exact Option.map_eq_none_iff.mpr (scanRun?_still (Option.map_eq_none_iff.mp fails))
  · rfl

/-- Behind an exponent no digit stands. -/
theorem scanExponent?_ends (found : scanExponent? cs = some s) :
    ∀ c ∈ s.rest.head?, c.isDigit = false := by
  unfold scanExponent? at found
  split at found
  · split at found
    · split at found
      all_goals
        obtain ⟨q, digits, rfl⟩ := Option.map_eq_some_iff.mp found
        exact scanDigits?_ends (s := q) digits
    · cases found
  · cases found

/-- The exponent behind a number, or nothing, stands there before a cut as well. -/
theorem withExponent_again (behind : (withExponent s).rest = left ++ cut) :
    ∃ tail, (withExponent s).taken = s.taken ++ tail ∧ s.rest = tail ++ left ++ cut ∧
      ∀ front, withExponent ⟨front, tail ++ left⟩ = ⟨front ++ tail, left⟩ := by
  cases found : scanExponent? s.rest with
  | none =>
    have same : withExponent s = s := by simp [withExponent, found]
    rw [same] at behind ⊢
    refine ⟨[], by simp, by simpa using behind, fun front => ?_⟩
    rw [behind] at found
    simp [withExponent, scanExponent?_still found]
  | some e =>
    have same : withExponent s = e.after s.taken := by simp [withExponent, found]
    rw [same] at behind ⊢
    have behind : e.rest = left ++ cut := behind
    have ends := head?_of_cut (behind ▸ scanExponent?_ends found)
    refine ⟨e.taken, rfl, ?_, fun front => ?_⟩
    · rw [List.append_assoc, ← behind, (splits_scanExponent? found).append]
    · simp [withExponent, scanExponent?_moved found ends, Scan.after]

/-- A number without a point is found again. -/
theorem scanNumber?_again_integer {whole : Scan} (digits : scanDigits? cs = some whole)
    (noFraction : ∀ rest, whole.rest = '.' :: rest → scanDigits? rest = none)
    (behind : (withExponent whole).rest = left ++ cut) :
    scanNumber? ((withExponent whole).taken ++ left) =
      some (.integer, ⟨(withExponent whole).taken, left⟩) := by
  obtain ⟨tail, taken, rest, again⟩ := withExponent_again behind
  have moved := scanDigits?_moved digits (head?_of_cut (rest ▸ scanDigits?_ends digits))
  rw [taken, List.append_assoc, scanNumber?, moved]
  dsimp only
  split
  · next more point =>
    rw [point, List.cons_append] at rest
    have fails := scanRun?_still (noFraction _ rest)
    rw [← scanDigits?_eq_scanRun?] at fails
    simp only [fails, again]
  · rw [again]

theorem steady_scanNumber? : Steady scanNumber? where
  again {cs left cut kind s} found behind := by
    unfold scanNumber? at found
    split at found
    · cases found
    next whole digits =>
    split at found
    · next rest point =>
      split at found
      · next fraction digits' =>
        cases found
        obtain ⟨tail, taken, rest', again⟩ := withExponent_again behind
        have ends : ∀ c ∈ ('.' :: (fraction.taken ++ (tail ++ left))).head?,
            c.isDigit = false := by
          intro c hc
          cases hc
          rfl
        have run := scanDigits?_moved digits ends
        have run' := scanDigits?_moved digits' (head?_of_cut (rest' ▸ scanDigits?_ends digits'))
        rw [taken]
        simp [Scan.after, scanNumber?, run, run', again]
      · next noFraction =>
        cases found
        refine scanNumber?_again_integer digits (fun more same => ?_) behind
        rw [point] at same
        cases same
        exact noFraction
    · next noPoint =>
      cases found
      exact scanNumber?_again_integer digits (fun more same => absurd same (noPoint more)) behind
  still fails :=
    scanNumber?_eq_none.mpr (scanRun?_still (scanNumber?_eq_none.mp fails))
  splits found := splits_scanNumber? found

end Numbers

/-! ## Brackets, marks and words -/

theorem steady_scanBracketed? {α : Type} (a : α) : Steady (tagged a scanBracketed?) := by
  refine steady_tagged ?_ ?_ splits_scanBracketed?
  · intro cs left cut s found behind
    obtain ⟨name, nonempty, plain, -, taken⟩ := scanBracketed?_eq_some_iff.mp found
    exact scanBracketed?_eq_some_iff.mpr ⟨name, nonempty, plain, by simp [taken], taken⟩
  · intro left cut fails
    -- a name that is closed before the cut is closed
    refine Option.eq_none_iff_forall_ne_some.mpr fun s found => ?_
    obtain ⟨name, nonempty, plain, rfl, taken⟩ := scanBracketed?_eq_some_iff.mp found
    have whole : scanBracketed? ('[' :: (name ++ ']' :: s.rest) ++ cut) =
        some ⟨s.taken, s.rest ++ cut⟩ :=
      scanBracketed?_eq_some_iff.mpr ⟨name, nonempty, plain, by simp, taken⟩
    cases fails.symm.trans whole

theorem steady_scanDoubleMark? : Steady scanDoubleMark? where
  again {cs left cut kind s} found behind := by
    unfold scanDoubleMark? at found
    split at found
    all_goals first
      | cases found
        rfl
      | cases found
  still {left cut} fails := by
    unfold scanDoubleMark?
    split
    all_goals first
      | cases fails
      | rfl
  splits := splits_scanDoubleMark?

theorem steady_scanMark? : Steady scanMark? where
  again {cs left cut kind s} found behind := by
    obtain _ | ⟨c, cs⟩ := cs
    · cases found
    · obtain ⟨k, kinds, same⟩ := Option.map_eq_some_iff.mp found
      cases same
      simp [scanMark?, kinds]
  still {left cut} fails := by
    obtain _ | ⟨c, left⟩ := left
    · rfl
    · exact Option.map_eq_none_iff.mpr (Option.map_eq_none_iff.mp fails)
  splits := splits_scanMark?

theorem steady_scanWord? : Steady scanWord? where
  again {cs left cut kind s} found behind := by
    obtain _ | ⟨c, cs⟩ := cs
    · cases found
    · obtain ⟨opens, rfl, rfl⟩ := scanWord?_eq_some found
      have run := takeWhile_again (p := isIdentPart) behind
      simp only [Scan.after, Scan.takeWhile, List.cons_append, List.nil_append] at run ⊢
      simp [scanWord?, opens, Scan.after, Scan.takeWhile, run]
  still {left cut} fails := by
    obtain _ | ⟨c, left⟩ := left
    · rfl
    · simp only [List.cons_append, scanWord?] at fails ⊢
      split at fails
      · cases fails
      · next closed => rw [if_neg closed]
  splits := splits_scanWord?

/-- What a token is recognized by where no quote opens one. -/
def scanUnquoted? (cs : List Char) : Option (TokenKind × Scan) :=
  tagged .columnRef scanBracketed? cs <|> scanNumber? cs <|> scanDoubleMark? cs <|> scanMark? cs
    <|> scanWord? cs

theorem steady_scanUnquoted? : Steady scanUnquoted? :=
  (steady_scanBracketed? _).orElse (steady_scanNumber?.orElse (steady_scanDoubleMark?.orElse
    (steady_scanMark?.orElse steady_scanWord?)))

/-! ## Comments -/

/-- A block comment is closed by the first closing mark. -/
theorem scanBlockComment?_again {cs left : List Char} {s : Scan}
    (found : scanBlockComment? cs = some s) :
    scanBlockComment? (s.taken ++ left) = some ⟨s.taken, left⟩ := by
  fun_induction scanBlockComment? cs generalizing s with
  | case1 => cases found
  | case2 rest =>
    cases found
    rfl
  | case3 c cs other ih =>
    obtain ⟨q, scanned, rfl⟩ := Option.map_eq_some_iff.mp found
    -- what follows `c` is not empty, so the same character follows it again
    have splits := splits_scanBlockComment? scanned
    obtain ⟨d, more, taken⟩ := List.exists_cons_of_ne_nil splits.taken
    have whole := splits.append
    have again := ih scanned
    rw [taken] at whole again
    simp only [Scan.after, taken, List.cons_append, List.nil_append] at again ⊢
    unfold scanBlockComment?
    split
    · next same =>
      cases same
      exact (other _ rfl whole.symm).elim
    · rw [again]
      rfl

/-- A block comment that is closed is closed before what comes after it. -/
theorem scanBlockComment?_still {left cut : List Char}
    (fails : scanBlockComment? (left ++ cut) = none) : scanBlockComment? left = none := by
  fun_induction scanBlockComment? left with
  | case1 => rfl
  | case2 rest => cases fails
  | case3 c cs other ih =>
    rw [List.cons_append] at fails
    unfold scanBlockComment? at fails
    split at fails
    · cases fails
    · exact Option.map_eq_none_iff.mpr (ih (Option.map_eq_none_iff.mp fails))

theorem steady_scanComment? {α : Type} (a : α) : Steady (tagged a scanComment?) := by
  refine steady_tagged ?_ ?_ splits_scanComment?
  · intro cs left cut s found behind
    unfold scanComment? at found
    split at found
    · cases found
      have run := takeWhile_again (p := (· != '\n')) behind
      simp only [Scan.takeWhile] at run
      simp [Scan.after, Scan.takeWhile, scanComment?, run]
    · cases found
      have run := takeWhile_again (p := (· != '\n')) behind
      simp only [Scan.takeWhile] at run
      simp [Scan.after, Scan.takeWhile, scanComment?, run]
    · obtain ⟨q, scanned, rfl⟩ := Option.map_eq_some_iff.mp found
      simp [Scan.after, scanComment?, scanBlockComment?_again scanned]
    · cases found
  · intro left cut fails
    unfold scanComment?
    split
    · cases fails
    · cases fails
    · exact Option.map_eq_none_iff.mpr
        (scanBlockComment?_still (Option.map_eq_none_iff.mp fails))
    · rfl

/-- Insignificant text is a run of blanks or a comment. -/
theorem nextTrivia?_eq_orElse (cs : List Char) :
    nextTrivia? cs = (scanRun? isBlank cs <|> scanComment? cs) := by
  unfold nextTrivia? scanRun?
  dsimp only
  split <;> rfl

theorem steady_nextTrivia? {α : Type} (a : α) : Steady (tagged a nextTrivia?) := by
  have both : tagged a nextTrivia? =
      fun cs => tagged a (scanRun? isBlank) cs <|> tagged a scanComment? cs := by
    funext cs
    rw [tagged, nextTrivia?_eq_orElse]
    cases blanks : scanRun? isBlank cs <;> simp [tagged, blanks]
  rw [both]
  refine Steady.orElse (steady_tagged scanRun?_again scanRun?_still ?_) (steady_scanComment? a)
  intro cs s found
  obtain ⟨rfl, nonempty⟩ := scanRun?_eq_some found
  exact ⟨List.takeWhile_append_dropWhile, nonempty⟩

end MeasureSql.Dax
