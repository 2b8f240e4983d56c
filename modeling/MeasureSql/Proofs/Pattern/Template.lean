import Mathlib.Data.List.TakeWhile
import MeasureSql.Pattern.Template

/-!
# The holes of a template

Giving the functions of a template the names of a dialect changes no hole: a hole is a name between
braces, a name is changed only before a parenthesis, and the new name has no brace in it.

## Main results

* `piecesOf_cons` — the pieces of a text without their bound.
* `holes_renameFunctions` — renaming functions keeps the holes.
* `fill_eq_ok`, `fill_eq_error` — when filling succeeds, and what it reports otherwise.
-/

namespace MeasureSql.Template

/-! ## Pieces without a bound -/

/-- What follows a hole is shorter than what followed its opening brace. -/
theorem length_of_hole? {cs name rest : List Char} (h : hole? cs = some (name, rest)) :
    rest.length < cs.length := by
  cases cs with
  | nil => simp [hole?] at h
  | cons c cs =>
    simp only [hole?] at h
    split at h
    · split at h
      · next after hdrop =>
        obtain ⟨-, rfl⟩ := Prod.mk.inj (Option.some.inj h)
        have hle := List.dropWhile_sublist (l := cs) isNamePart
        have := hle.length_le
        rw [hdrop] at this
        simp only [List.length_cons] at this ⊢
        omega
      · cases h
    · cases h

/-- A bound above the length of the text plays no part. -/
theorem piecesFrom_eq {cs : List Char} {fuel : Nat} (h : cs.length ≤ fuel) :
    piecesFrom fuel cs = piecesFrom cs.length cs := by
  -- Strong induction on the text: after a hole the reading goes on behind its closing brace.
  induction hn : cs.length using Nat.strongRecOn generalizing cs fuel with
  | ind n ih =>
    subst hn
    cases cs with
    | nil => cases fuel <;> rfl
    | cons c cs =>
      simp only [List.length_cons] at h ih ⊢
      obtain ⟨fuel, rfl⟩ : ∃ k, fuel = k + 1 := ⟨fuel - 1, by omega⟩
      simp only [piecesFrom]
      have hcs : piecesFrom fuel cs = piecesFrom cs.length cs :=
        ih cs.length (by omega) (by omega) rfl
      split
      · split
        · next name rest hhole =>
          have hlt := length_of_hole? hhole
          have hrest : ∀ k, rest.length ≤ k → piecesFrom k rest = piecesFrom rest.length rest :=
            fun k hk => ih rest.length (by omega) hk rfl
          rw [hrest fuel (by omega), hrest cs.length (by omega)]
        · rw [hcs]
      · rw [hcs]

/-- The pieces of a text. -/
def piecesOf (cs : List Char) : List Piece :=
  piecesFrom cs.length cs

@[simp] theorem piecesOf_nil : piecesOf [] = [] := rfl

/-- A text begins with a hole or with a character. -/
theorem piecesOf_cons (c : Char) (cs : List Char) :
    piecesOf (c :: cs) =
      if c = '\x7b' then match hole? cs with
        | some (name, rest) => .hole (String.ofList name) :: piecesOf rest
        | none => .char c :: piecesOf cs
      else .char c :: piecesOf cs := by
  simp only [piecesOf, List.length_cons, piecesFrom, beq_iff_eq]
  cases hhole : hole? cs with
  | none => rfl
  | some entry =>
    obtain ⟨name, rest⟩ := entry
    simp only [piecesFrom_eq (Nat.le_of_lt (length_of_hole? hhole))]

/-! ## Names of holes -/

/-- The names of the holes of a text, in order and with repetitions. -/
def holeNames (cs : List Char) : List String :=
  (piecesOf cs).filterMap fun | .hole name => some name | .char _ => none

theorem holes_eq (template : String) : holes template = (holeNames template.toList).eraseDups := rfl

@[simp] theorem holeNames_nil : holeNames [] = [] := rfl

/-- A character that opens no brace adds no hole. -/
theorem holeNames_cons_of_ne {c : Char} (hc : c ≠ '\x7b') (cs : List Char) :
    holeNames (c :: cs) = holeNames cs := by
  simp [holeNames, piecesOf_cons, hc]

/-- A text without opening braces adds no hole. -/
theorem holeNames_append_of_forall_ne {front : List Char} (h : ∀ c ∈ front, c ≠ '\x7b')
    (cs : List Char) : holeNames (front ++ cs) = holeNames cs := by
  induction front with
  | nil => rfl
  | cons c front ih =>
    rw [List.cons_append, holeNames_cons_of_ne (h c List.mem_cons_self),
      ih fun d hd => h d (List.mem_cons_of_mem c hd)]

/-- A brace that closes right after a name makes a hole. -/
theorem holeNames_open_some {cs name rest : List Char} (h : hole? cs = some (name, rest)) :
    holeNames ('\x7b' :: cs) = String.ofList name :: holeNames rest := by
  simp [holeNames, piecesOf_cons, h]

/-- Any other opening brace is a plain character. -/
theorem holeNames_open_none {cs : List Char} (h : hole? cs = none) :
    holeNames ('\x7b' :: cs) = holeNames cs := by
  simp [holeNames, piecesOf_cons, h]

/-! ## Names of functions -/

theorem isNamePart_of_isNameStart {c : Char} (h : isNameStart c = true) : isNamePart c = true := by
  simp only [isNameStart, isNamePart, Char.isAlphanum, Bool.or_eq_true] at h ⊢
  rcases h with h | h
  · exact .inl (.inl h)
  · exact .inr h

theorem ne_brace_of_isNamePart {c : Char} (h : isNamePart c = true) : c ≠ '\x7b' := by
  rintro rfl
  revert h
  decide

/-- Every name that a dialect gives to a function is a name. -/
theorem isNamePart_renamings (d : Dialect) :
    ∀ entry ∈ d.renamings, entry.2.toList.all isNamePart = true := by
  cases d <;> decide +kernel

theorem isNamePart_of_renamed? {d : Dialect} {function shown : String}
    (h : d.renamed? function = some shown) : ∀ c ∈ shown.toList, isNamePart c = true := by
  have hmem : ∃ key, (key, shown) ∈ d.renamings := by
    rw [Dialect.renamed?] at h
    generalize d.renamings = entries at h
    induction entries with
    | nil => cases h
    | cons entry entries ih =>
      obtain ⟨key, value⟩ := entry
      simp only [List.lookup_cons] at h
      split at h
      · cases h
        exact ⟨key, List.mem_cons_self⟩
      · obtain ⟨key', hkey'⟩ := ih h
        exact ⟨key', List.mem_cons_of_mem _ hkey'⟩
  obtain ⟨key, hkey⟩ := hmem
  exact List.all_eq_true.mp (isNamePart_renamings d _ hkey)

/-- What is shown for a name: the name itself, or before a parenthesis the one in the dialect. -/
def shownName (d : Dialect) (name : List Char) (next : Char) : List Char :=
  if next == '(' then ((d.renamed? (String.ofList name)).map String.toList).getD name else name

theorem shownName_of_ne {d : Dialect} {name : List Char} {next : Char} (h : next ≠ '(') :
    shownName d name next = name := by
  simp [shownName, h]

/-- What is shown for a name is a name. -/
theorem isNamePart_shownName {d : Dialect} {name : List Char} (next : Char)
    (h : ∀ c ∈ name, isNamePart c = true) : ∀ c ∈ shownName d name next, isNamePart c = true := by
  rw [shownName]
  split
  · cases hr : d.renamed? (String.ofList name) with
    | none => exact h
    | some shown => exact isNamePart_of_renamed? hr
  · exact h

/-! ## Renaming -/

/-- A name at the front of a text is shown as a whole, up to the character that ends it. -/
theorem renameFrom_run (d : Dialect) (inWord : Bool) {run name : List Char} (hrun : run ≠ [])
    (hname : ∀ c ∈ name, isNamePart c = true) (rest : List Char) :
    renameFrom d inWord run (name ++ rest) =
      renameFrom d (if name = [] then inWord else true) (name.reverse ++ run) rest := by
  induction name generalizing run inWord with
  | nil => rfl
  | cons c name ih =>
    have hempty : run.isEmpty = false := by simpa using hrun
    simp only [List.cons_append, renameFrom, hempty, hname c List.mem_cons_self]
    simp only [Bool.false_eq_true, if_false, if_true]
    rw [ih true (List.cons_ne_nil c run) fun d hd => hname d (List.mem_cons_of_mem c hd)]
    simp

/-- The end of a name: it is shown, and the text goes on behind it. -/
theorem renameFrom_end (d : Dialect) (inWord : Bool) {run : List Char} (hrun : run ≠ []) {c : Char}
    (hc : isNamePart c = false) (cs : List Char) :
    renameFrom d inWord run (c :: cs) =
      shownName d run.reverse c ++ c :: renameFrom d (Text.isWordChar c) [] cs := by
  have hempty : run.isEmpty = false := by simpa using hrun
  simp [renameFrom, hempty, hc, shownName]

/-- A name and the character that ends it, from the start of a word. -/
theorem renameFrom_word (d : Dialect) {c : Char} {name : List Char} (hc : isNameStart c = true)
    (hname : ∀ c ∈ name, isNamePart c = true) {next : Char} (hnext : isNamePart next = false)
    (rest : List Char) :
    renameFrom d false [] (c :: name ++ next :: rest) =
      shownName d (c :: name) next ++ next :: renameFrom d (Text.isWordChar next) [] rest := by
  have hstep : renameFrom d false [] (c :: name ++ next :: rest) =
      renameFrom d true [c] (name ++ next :: rest) := by
    simp [renameFrom, hc]
  rw [hstep, renameFrom_run d true (List.cons_ne_nil c []) hname,
    renameFrom_end d _ (by simp) hnext]
  simp

/-- The rest behind a name is empty or begins with a character that ends the name. -/
theorem dropWhile_isNamePart (cs : List Char) :
    cs.dropWhile isNamePart = [] ∨
      ∃ next rest, cs.dropWhile isNamePart = next :: rest ∧ isNamePart next = false := by
  cases h : cs.dropWhile isNamePart with
  | nil => exact .inl rfl
  | cons next rest =>
    refine .inr ⟨next, rest, rfl, ?_⟩
    have hhead := List.head_dropWhile_not isNamePart (l := cs) (by simp [h])
    simpa [h] using hhead

/-- A name that no closing brace ends is no hole. -/
theorem hole?_append_eq_none {name : List Char} (hname : ∀ c ∈ name, isNamePart c = true)
    {next : Char} (hnext : isNamePart next = false) (hne : next ≠ '\x7d') (rest : List Char) :
    hole? (name ++ next :: rest) = none := by
  cases name with
  | nil =>
    have hstart : isNameStart next = false := by
      cases hs : isNameStart next with
      | false => rfl
      | true => rw [isNamePart_of_isNameStart hs] at hnext; cases hnext
    simp [hole?, hstart]
  | cons c name =>
    have hdrop : (name ++ next :: rest).dropWhile isNamePart = next :: rest := by
      rw [List.dropWhile_append_of_pos fun d hd => hname d (List.mem_cons_of_mem c hd),
        List.dropWhile_cons_of_neg (by simp [hnext])]
    simp only [List.cons_append, hole?, hdrop]
    split
    · split
      · next heq => exact absurd (List.cons.inj heq).1 hne
      · rfl
    · rfl

/-- A name that a closing brace ends is a hole. -/
theorem hole?_append_eq_some {c : Char} (hc : isNameStart c = true) {name : List Char}
    (hname : ∀ c ∈ name, isNamePart c = true) (rest : List Char) :
    hole? (c :: name ++ '\x7d' :: rest) = some (c :: name, rest) := by
  have hbrace : isNamePart '\x7d' = false := by decide
  have hdrop : (name ++ '\x7d' :: rest).dropWhile isNamePart = '\x7d' :: rest := by
    rw [List.dropWhile_append_of_pos hname, List.dropWhile_cons_of_neg (by simp [hbrace])]
  have htake : (name ++ '\x7d' :: rest).takeWhile isNamePart = name := by
    rw [List.takeWhile_append_of_pos hname, List.takeWhile_cons_of_neg (by simp [hbrace])]
    exact List.append_nil name
  simp [hole?, hc, hdrop, htake]

/-- Where a hole begins, and what it consists of. -/
theorem eq_of_hole? {cs name rest : List Char} (h : hole? cs = some (name, rest)) :
    ∃ c run, name = c :: run ∧ isNameStart c = true ∧ (∀ d ∈ run, isNamePart d = true) ∧
      cs = c :: run ++ '\x7d' :: rest := by
  cases cs with
  | nil => cases h
  | cons c cs =>
    simp only [hole?] at h
    split at h
    · next hc =>
      split at h
      · next after hdrop =>
        obtain ⟨rfl, rfl⟩ := Prod.mk.inj (Option.some.inj h)
        refine ⟨c, cs.takeWhile isNamePart, rfl, hc, fun d hd => List.mem_takeWhile_imp hd, ?_⟩
        rw [List.cons_append, ← hdrop, List.takeWhile_append_dropWhile]
      · cases h
    · cases h

/-- Renaming keeps a hole that begins here. -/
theorem hole?_renameFrom_of_some (d : Dialect) {cs name rest : List Char}
    (h : hole? cs = some (name, rest)) :
    hole? (renameFrom d false [] cs) =
      some (name, renameFrom d (Text.isWordChar '\x7d') [] rest) := by
  obtain ⟨c, run, rfl, hc, hrun, rfl⟩ := eq_of_hole? h
  have hbrace : isNamePart '\x7d' = false := by decide
  rw [renameFrom_word d hc hrun hbrace, shownName_of_ne (by decide)]
  exact hole?_append_eq_some hc hrun _

/-- Renaming makes no hole where there is none. -/
theorem hole?_renameFrom_of_none (d : Dialect) {cs : List Char} (h : hole? cs = none) :
    hole? (renameFrom d false [] cs) = none := by
  cases cs with
  | nil => rfl
  | cons c cs =>
    cases hc : isNameStart c with
    | false => simp [renameFrom, hc, hole?]
    | true =>
      have hrun : ∀ d ∈ cs.takeWhile isNamePart, isNamePart d = true :=
        fun d hd => List.mem_takeWhile_imp hd
      have hsplit : cs = cs.takeWhile isNamePart ++ cs.dropWhile isNamePart :=
        List.takeWhile_append_dropWhile.symm
      rcases dropWhile_isNamePart cs with hdrop | ⟨next, rest, hdrop, hnext⟩
      · -- The name runs to the end of the text and is shown as it is.
        have hsame : renameFrom d false [] (c :: cs) = c :: cs := by
          have hstep : renameFrom d false [] (c :: cs) = renameFrom d true [c] (cs ++ []) := by
            simp [renameFrom, hc]
          rw [hdrop, List.append_nil] at hsplit
          rw [hstep, renameFrom_run d true (List.cons_ne_nil c []) (hsplit ▸ hrun)]
          simp [renameFrom]
        rw [hsame]
        exact h
      · have hne : next ≠ '\x7d' := by
          rintro rfl
          rw [hsplit, hdrop, ← List.cons_append, hole?_append_eq_some hc hrun] at h
          cases h
        rw [hsplit, hdrop, ← List.cons_append, renameFrom_word d hc hrun hnext]
        refine hole?_append_eq_none (isNamePart_shownName next ?_) hnext hne _
        intro d hd
        rcases List.mem_cons.mp hd with rfl | hd
        · exact isNamePart_of_isNameStart hc
        · exact hrun d hd

/-- **Renaming the functions of a text keeps the names of its holes.** -/
theorem holeNames_renameFrom (d : Dialect) (cs : List Char) (inWord : Bool) (run : List Char)
    (hrun : ∀ c ∈ run, isNamePart c = true) :
    holeNames (renameFrom d inWord run cs) = holeNames cs := by
  -- Strong induction on the text, because a hole is skipped in one step.
  induction hn : cs.length using Nat.strongRecOn generalizing cs inWord run with
  | ind n ih =>
    subst hn
    -- A character that belongs to no name is shown, and opens a hole after renaming iff before.
    have hplain : ∀ c rest, rest.length < cs.length →
        holeNames (c :: renameFrom d (Text.isWordChar c) [] rest) = holeNames (c :: rest) := by
      intro c rest hlt
      have hrest := ih rest.length hlt rest (Text.isWordChar c) [] (by simp) rfl
      by_cases hc : c = '\x7b'
      · subst hc
        have hword : Text.isWordChar '\x7b' = false := by decide
        rw [hword] at hrest ⊢
        cases hhole : hole? rest with
        | none =>
          rw [holeNames_open_none hhole, holeNames_open_none (hole?_renameFrom_of_none d hhole),
            hrest]
        | some entry =>
          obtain ⟨name, after⟩ := entry
          have hshort := length_of_hole? hhole
          rw [holeNames_open_some hhole,
            holeNames_open_some (hole?_renameFrom_of_some d hhole),
            ih after.length (by omega) after _ [] (by simp) rfl]
      · rw [holeNames_cons_of_ne hc, holeNames_cons_of_ne hc, hrest]
    cases cs with
    | nil =>
      have hbraces : ∀ c ∈ run.reverse, c ≠ '\x7b' :=
        fun c hc => ne_brace_of_isNamePart (hrun c (List.mem_reverse.mp hc))
      have := holeNames_append_of_forall_ne hbraces []
      simpa [renameFrom] using this
    | cons c cs =>
      by_cases hempty : run = []
      · subst hempty
        simp only [renameFrom, List.isEmpty_nil, if_true]
        split
        · next hstart =>
          simp only [Bool.and_eq_true] at hstart
          have hpart := isNamePart_of_isNameStart hstart.1
          rw [ih cs.length (by simp) cs true [c] (by simpa using hpart) rfl,
            holeNames_cons_of_ne (ne_brace_of_isNamePart hpart)]
        · exact hplain c cs (by simp)
      · cases hpart : isNamePart c with
        | true =>
          have hempty' : run.isEmpty = false := by simpa using hempty
          simp only [renameFrom, hempty', hpart, Bool.false_eq_true, if_false, if_true]
          rw [ih cs.length (by simp) cs true (c :: run) (by simpa [hpart] using hrun) rfl,
            holeNames_cons_of_ne (ne_brace_of_isNamePart hpart)]
        | false =>
          rw [renameFrom_end d inWord hempty hpart,
            holeNames_append_of_forall_ne fun e he => ne_brace_of_isNamePart
              (isNamePart_shownName c (fun e he => hrun e (List.mem_reverse.mp he)) e he)]
          exact hplain c cs (by simp)

/-- **Renaming functions keeps the holes of a template.** -/
theorem holes_renameFunctions (d : Dialect) (template : String) :
    holes (renameFunctions d template) = holes template := by
  rw [holes_eq, holes_eq, renameFunctions, String.toList_ofList,
    holeNames_renameFrom d _ false [] (by simp)]

/-! ## Filling -/

/-- Filling succeeds when every hole has a value. -/
theorem fill_eq_ok {pattern template : String} {value : String → Option String}
    (h : ∀ name ∈ holes template, (value name).isSome = true) :
    fill pattern template value =
      .ok (String.ofList ((pieces template).flatMap (fillPiece value))) := by
  have hfind : (holes template).find? (fun name => (value name).isNone) = none := by
    rw [List.find?_eq_none]
    intro name hname
    simpa using Option.isSome_iff_ne_none.mp (h name hname)
  simp only [fill, hfind]

/-- Filling fails at the first hole without a value. -/
theorem fill_eq_error {pattern template : String} {value : String → Option String} {hole : String}
    (front back : List String) (hholes : holes template = front ++ hole :: back)
    (hfront : ∀ name ∈ front, (value name).isSome = true) (hhole : value hole = none) :
    fill pattern template value = .error (.unbound pattern hole) := by
  have hnone : front.find? (fun name => (value name).isNone) = none := by
    rw [List.find?_eq_none]
    intro name hname
    simpa using Option.isSome_iff_ne_none.mp (hfront name hname)
  have hfind : (holes template).find? (fun name => (value name).isNone) = some hole := by
    rw [hholes, List.find?_append, hnone]
    simp [hhole]
  simp only [fill, hfind]

end MeasureSql.Template
