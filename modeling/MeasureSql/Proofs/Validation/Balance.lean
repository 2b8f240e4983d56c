import MeasureSql.Proofs.Sql.Composed
import MeasureSql.Text.Blank
import MeasureSql.Validation.Balance

/-!
# Texts in balance

Both scans of a text pass from character to character in the same way, as long as there is no
backslash: a state is the quote that is being read and the number of parentheses that are open.  A
text in balance has no backslash and leads from every state outside quotes back to it.  Blanks
change no state, so they do not matter.

## Main definitions

* `scan` — one character.
* `Balanced` — nothing is left open, and nothing is closed that was not opened.

## Main results

* `parenFault?_eq_none`, `openQuote?_eq_none` — a text in balance has no fault.
* `Balanced.append`, `Balanced.paren`, `balanced_quoteBetween` — texts in balance.
* `balanced_congr` — blanks do not matter.
-/

namespace MeasureSql.Validation

open Sql Text

/-- The state after a character, from a quote that is read and the number of open parentheses; a
parenthesis that closes nothing stops the scan. -/
def scan : Option Char × Nat → Char → Option (Option Char × Nat)
  | (some quote, depth), c => some (if c == quote then none else some quote, depth)
  | (none, depth), c =>
    if isQuote c then some (some c, depth)
    else if c == '(' then some (none, depth + 1)
    else if c == ')' then match depth with
      | 0 => none
      | outer + 1 => some (none, outer)
    else some (none, depth)

/-- A text in balance: the scan comes back to where it began, and there is no backslash. -/
structure Balanced (cs : List Char) : Prop where
  scans : cs.foldlM scan (none, 0) = some (none, 0)
  plain : '\\' ∉ cs

instance (cs : List Char) : Decidable (Balanced cs) :=
  decidable_of_iff (cs.foldlM scan (none, 0) = some (none, 0) ∧ '\\' ∉ cs)
    ⟨fun h => ⟨h.1, h.2⟩, fun h => ⟨h.scans, h.plain⟩⟩

/-! ## The scans -/

theorem parenFaultFrom_eq_none {quote : Option Char} {depth offset : Nat} {cs : List Char} :
    parenFaultFrom quote depth offset cs = none ↔
      ∃ after, cs.foldlM scan (quote, depth) = some (after, 0) := by
  induction cs generalizing quote depth offset with
  | nil =>
    by_cases h : depth = 0 <;> simp [parenFaultFrom, h]
  | cons c cs ih =>
    cases quote with
    | some q => simp [parenFaultFrom, scan, ih]
    | none =>
      simp only [parenFaultFrom, List.foldlM_cons, scan]
      split
      · simp [ih]
      · split
        · simp [ih]
        · split
          · cases depth with
            | zero => simp
            | succ outer => simp [ih]
          · simp [ih]

/-- The quote after a character, with its offset. -/
def quoteAfter (quote : Option (Char × Nat)) (offset : Nat) (c : Char) : Option (Char × Nat) :=
  match quote with
  | some (q, start) => if c == q then none else some (q, start)
  | none => if isQuote c then some (c, offset) else none

theorem openQuoteFrom_cons {c : Char} (h : c ≠ '\\') (quote : Option (Char × Nat)) (offset : Nat)
    (cs : List Char) : openQuoteFrom quote offset (c :: cs) =
      openQuoteFrom (quoteAfter quote offset c) (offset + c.utf8Size) cs := by
  rcases quote with _ | ⟨q, start⟩
  · simp [openQuoteFrom, quoteAfter, h]
  · simp [openQuoteFrom, quoteAfter, h]

/-- Where the scan goes on, the quote is that of the scan of quotes. -/
theorem fst_of_scan (quote : Option (Char × Nat)) (offset : Nat) {depth : Nat} {c : Char}
    {next : Option Char × Nat} (h : scan (quote.map (·.1), depth) c = some next) :
    next.1 = (quoteAfter quote offset c).map (·.1) := by
  cases quote with
  | some q =>
    obtain rfl := Option.some.inj h
    dsimp only [quoteAfter]
    split <;> rfl
  | none =>
    dsimp only [quoteAfter]
    simp only [Option.map_none, scan] at h
    split at h
    · obtain rfl := Option.some.inj h
      simp [*]
    · next plain =>
      rw [if_neg plain]
      split at h
      · obtain rfl := Option.some.inj h
        rfl
      · split at h
        · cases depth with
          | zero => cases h
          | succ outer =>
            obtain rfl := Option.some.inj h
            rfl
        · obtain rfl := Option.some.inj h
          rfl

/-- The scan of quotes passes through the same quotes, without a backslash. -/
theorem openQuoteFrom_eq_none {quote : Option (Char × Nat)} {offset depth : Nat} {cs : List Char}
    (plain : '\\' ∉ cs) {after : Nat}
    (h : cs.foldlM scan (quote.map (·.1), depth) = some (none, after)) :
    openQuoteFrom quote offset cs = none := by
  induction cs generalizing quote offset depth with
  | nil =>
    cases quote with
    | none => rfl
    | some q => simp at h
  | cons c cs ih =>
    rw [List.mem_cons, not_or] at plain
    rw [List.foldlM_cons] at h
    obtain ⟨⟨next, depth'⟩, step, rest⟩ := Option.bind_eq_some_iff.mp h
    rw [openQuoteFrom_cons (Ne.symm plain.1)]
    have same : next = (quoteAfter quote offset c).map (·.1) := fst_of_scan quote offset step
    exact ih plain.2 (same ▸ rest)

/-- **A text in balance has no fault in its parentheses.** -/
theorem parenFault?_eq_none {sql : String} (h : Balanced sql.toList) : parenFault? sql = none :=
  parenFaultFrom_eq_none.mpr ⟨none, h.scans⟩

/-- **A text in balance leaves no quote open.** -/
theorem openQuote?_eq_none {sql : String} (h : Balanced sql.toList) : openQuote? sql = none :=
  openQuoteFrom_eq_none h.plain h.scans

/-! ## Texts in balance -/

/-- More open parentheses do not matter to a character. -/
theorem scan_add (k : Nat) {quote next : Option Char} {depth depth' : Nat} {c : Char}
    (h : scan (quote, depth) c = some (next, depth')) :
    scan (quote, depth + k) c = some (next, depth' + k) := by
  cases quote with
  | some q =>
    obtain ⟨rfl, rfl⟩ := Prod.mk.inj (Option.some.inj h)
    rfl
  | none =>
    simp only [scan] at h ⊢
    split
    · next quotes =>
      rw [if_pos quotes] at h
      obtain ⟨rfl, rfl⟩ := Prod.mk.inj (Option.some.inj h)
      rfl
    · next quotes =>
      rw [if_neg quotes] at h
      split
      · next opens =>
        rw [if_pos opens] at h
        obtain ⟨rfl, rfl⟩ := Prod.mk.inj (Option.some.inj h)
        rw [Nat.add_right_comm]
      · next opens =>
        rw [if_neg opens] at h
        split
        · next closes =>
          rw [if_pos closes] at h
          cases depth with
          | zero => cases h
          | succ outer =>
            obtain ⟨rfl, rfl⟩ := Prod.mk.inj (Option.some.inj h)
            rw [Nat.add_right_comm]
        · next closes =>
          rw [if_neg closes] at h
          obtain ⟨rfl, rfl⟩ := Prod.mk.inj (Option.some.inj h)
          rfl

/-- More open parentheses do not matter to a text. -/
theorem foldlM_scan_add (k : Nat) {cs : List Char} {quote after : Option Char} {depth depth' : Nat}
    (h : cs.foldlM scan (quote, depth) = some (after, depth')) :
    cs.foldlM scan (quote, depth + k) = some (after, depth' + k) := by
  induction cs generalizing quote depth with
  | nil =>
    obtain ⟨rfl, rfl⟩ := Prod.mk.inj (Option.some.inj h)
    rfl
  | cons c cs ih =>
    rw [List.foldlM_cons] at h ⊢
    obtain ⟨⟨next, depth₁⟩, step, rest⟩ := Option.bind_eq_some_iff.mp h
    exact Option.bind_eq_some_iff.mpr ⟨_, scan_add k step, ih rest⟩

namespace Balanced

variable {xs ys : List Char}

theorem nil : Balanced [] := ⟨rfl, by simp⟩

theorem append (hx : Balanced xs) (hy : Balanced ys) : Balanced (xs ++ ys) where
  scans := by
    rw [List.foldlM_append, hx.scans]
    exact hy.scans
  plain := by simp [hx.plain, hy.plain]

/-- A text in parentheses. -/
theorem paren (h : Balanced xs) : Balanced ('(' :: (xs ++ [')'])) where
  scans := by
    have inside : xs.foldlM scan (none, 1) = some (none, 1) := foldlM_scan_add 1 h.scans
    have opening : scan (none, 0) '(' = some (none, 1) := rfl
    have closing : scan (none, 1) ')' = some (none, 0) := rfl
    simp [opening, inside, closing]
  plain := by simp [h.plain]

end Balanced

/-- A character that is neither a quote nor a parenthesis nor a backslash. -/
def isNeutral (c : Char) : Bool :=
  !isQuote c && c != '(' && c != ')' && c != '\\'

theorem balanced_of_neutral {cs : List Char} (h : ∀ c ∈ cs, isNeutral c = true) : Balanced cs where
  scans := by
    induction cs with
    | nil => rfl
    | cons c cs ih =>
      obtain ⟨hc, hcs⟩ := List.forall_mem_cons.mp h
      have step : scan (none, 0) c = some (none, 0) := by
        simp only [isNeutral, Bool.and_eq_true, Bool.not_eq_true', bne_iff_ne] at hc
        simp [scan, hc]
      rw [List.foldlM_cons, step]
      exact ih hcs
  plain mem := absurd (h _ mem) (by decide)

/-- A text behind a quote is read up to the quote that closes it: a quote inside it is written
twice. -/
theorem foldlM_scan_doubled {mark : Char} (hmark : isQuote mark = true) (cs : List Char)
    (depth : Nat) :
    (Text.doubled (· == mark) cs ++ [mark]).foldlM scan (some mark, depth) =
      some (none, depth) := by
  have closes : scan (some mark, depth) mark = some (none, depth) := by simp [scan]
  have opens : scan (none, depth) mark = some (some mark, depth) := by simp [scan, hmark]
  induction cs with
  | nil => simp [Text.doubled, closes]
  | cons c cs ih =>
    rw [Text.doubled]
    split
    · next same =>
      obtain rfl : c = mark := by simpa using same
      rw [List.cons_append, List.cons_append, List.foldlM_cons, closes]
      show (c :: (Text.doubled (· == c) cs ++ [c])).foldlM scan (none, depth) = _
      rw [List.foldlM_cons, opens]
      exact ih
    · next other =>
      have stays : scan (some mark, depth) c = some (some mark, depth) := by simp [scan, other]
      rw [List.cons_append, List.foldlM_cons, stays]
      exact ih

/-- **A quoted text is in balance**, without a backslash. -/
theorem balanced_quoteBetween {mark : Char} (hmark : isQuote mark = true) {s : String}
    (plain : '\\' ∉ s.toList) : Balanced (quoteBetween mark mark s).toList where
  scans := by
    have opens : scan (none, 0) mark = some (some mark, 0) := by simp [scan, hmark]
    rw [quoteBetween, String.toList_ofList, List.cons_append, List.foldlM_cons, opens]
    exact foldlM_scan_doubled hmark s.toList 0
  plain := by
    have other : '\\' ≠ mark := by
      rintro rfl
      cases hmark
    exact not_mem_quoteBetween other other plain

/-! ## Blanks -/

/-- A blank changes no state. -/
theorem scan_blank {c : Char} (hc : isBlank c = true) {quote : Option Char}
    (hquote : ∀ q ∈ quote, isQuote q = true) (depth : Nat) :
    scan (quote, depth) c = some (quote, depth) := by
  have other : ∀ d ∈ ['\x27', '"', '(', ')'], c ≠ d := by
    rintro d hd rfl
    have printed : ['\x27', '"', '(', ')'].all (!isBlank ·) = true := by decide
    have mark := List.all_eq_true.mp printed c hd
    rw [hc] at mark
    cases mark
  have plain : isQuote c = false ∧ (c == '(') = false ∧ (c == ')') = false := by
    simpa [isQuote, and_assoc] using other
  cases quote with
  | none => simp [scan, plain]
  | some q =>
    have other : (c == q) = false := by
      rw [beq_eq_false_iff_ne]
      rintro rfl
      rw [hquote c rfl] at plain
      cases plain.1
    simp [scan, other]

/-- Only a quote is read as a quote. -/
theorem isQuote_of_scan {quote next : Option Char} {depth depth' : Nat} {c : Char}
    (hquote : ∀ q ∈ quote, isQuote q = true) (h : scan (quote, depth) c = some (next, depth')) :
    ∀ q ∈ next, isQuote q = true := by
  cases quote with
  | some q =>
    obtain ⟨rfl, rfl⟩ := Prod.mk.inj (Option.some.inj h)
    intro q' hq'
    split at hq'
    · cases hq'
    · exact hquote q' hq'
  | none =>
    obtain rfl : next = (quoteAfter none 0 c).map (·.1) :=
      fst_of_scan none 0 h
    intro q hq
    dsimp only [quoteAfter] at hq
    split at hq
    · next quotes =>
      obtain rfl := Option.some.inj hq
      exact quotes
    · cases hq

/-- **Without its blanks** a text leads to the same state. -/
theorem foldlM_scan_filter (cs : List Char) {quote : Option Char}
    (hquote : ∀ q ∈ quote, isQuote q = true) (depth : Nat) :
    (cs.filter (!isBlank ·)).foldlM scan (quote, depth) = cs.foldlM scan (quote, depth) := by
  induction cs generalizing quote depth with
  | nil => rfl
  | cons c cs ih =>
    cases blank : isBlank c with
    | true =>
      rw [List.filter_cons_of_neg (by simp [blank]), List.foldlM_cons, scan_blank blank hquote]
      exact ih hquote depth
    | false =>
      rw [List.filter_cons_of_pos (by simp [blank]), List.foldlM_cons, List.foldlM_cons]
      cases step : scan (quote, depth) c with
      | none => rfl
      | some next => exact ih (isQuote_of_scan hquote step) next.2

/-- **Texts that differ in blanks** are in balance alike. -/
theorem balanced_congr {xs ys : List Char}
    (h : xs.filter (!isBlank ·) = ys.filter (!isBlank ·)) (hx : Balanced xs) : Balanced ys where
  scans := by
    rw [← foldlM_scan_filter ys (by simp), ← h, foldlM_scan_filter xs (by simp)]
    exact hx.scans
  plain mem := by
    have printed : '\\' ∈ ys.filter (!isBlank ·) := List.mem_filter.mpr ⟨mem, by decide⟩
    rw [← h] at printed
    exact hx.plain ((List.mem_filter.mp printed).1)

end MeasureSql.Validation
