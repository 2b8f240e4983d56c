import MeasureSql.Proofs.Validation.Balance
import MeasureSql.Proofs.Validation.Partners

/-!
# The check of parentheses decides balance

The check of parentheses counts the open ones and stops at the first that closes too much.  What it
says is a fact about the sequence of parentheses outside quoted text: nothing when the sequence is
in balance, else the offset in bytes of the first parenthesis that closes without a partner, else
the number of those that open without one.

## Main definitions

* `Unquoted` — what stands before a place outside quoted text.
* `parens` — the parentheses of a text outside quotes, with their offsets.
* `faultOf` — the fault that counting finds in a sequence.

## Main results

* `parenFaultFrom_eq` — the scan finds the fault of the sequence outside quoted text.
* `parenIssues_decide` — what the check says about a text.
-/

namespace MeasureSql.Validation

/-! ## Quoted text -/

/-- A text that ends outside quotes: plain characters, and quoted texts with the quotes that open
and close them. -/
inductive Unquoted : List Char → Prop
  | nil : Unquoted []
  | plain {c : Char} {cs : List Char} (hc : isQuote c = false) (h : Unquoted cs) :
      Unquoted (c :: cs)
  /-- The closing quote is the first one of the same kind. -/
  | quoted {q : Char} {inside cs : List Char} (hq : isQuote q = true) (first : q ∉ inside)
      (h : Unquoted cs) : Unquoted (q :: (inside ++ q :: cs))

/-- The quote that is open after a character. -/
def toggle (quote : Option Char) (c : Char) : Option Char :=
  match quote with
  | some q => if c == q then none else some q
  | none => if isQuote c then some c else none

theorem foldl_toggle_inside {q : Char} {inside : List Char} (h : q ∉ inside) :
    inside.foldl toggle (some q) = some q := by
  induction inside with
  | nil => rfl
  | cons c cs ih =>
    rw [List.mem_cons, not_or] at h
    have stays : toggle (some q) c = some q := by simp [toggle, Ne.symm h.1]
    rw [List.foldl_cons, stays]
    exact ih h.2

theorem Unquoted.foldl_toggle {cs : List Char} (h : Unquoted cs) : cs.foldl toggle none = none := by
  induction h with
  | nil => rfl
  | plain hc h ih => simpa [toggle, hc] using ih
  | @quoted q inside cs hq first h ih =>
    have opens : toggle none q = some q := by simp [toggle, hq]
    have closes : toggle (some q) q = none := by simp [toggle]
    rw [List.foldl_cons, opens, List.foldl_append, foldl_toggle_inside first, List.foldl_cons,
      closes]
    exact ih

/-- From outside quotes the text is plain up to the next quoted text; from inside, the quote is
closed where it stands next. -/
theorem unquoted_of_foldl_toggle (cs : List Char) :
    (cs.foldl toggle none = none → Unquoted cs) ∧
    ∀ q, cs.foldl toggle (some q) = none →
      ∃ inside rest, cs = inside ++ q :: rest ∧ q ∉ inside ∧ Unquoted rest := by
  induction cs with
  | nil => exact ⟨fun _ => .nil, by simp⟩
  | cons c cs ih =>
    constructor
    · intro outside
      rw [List.foldl_cons] at outside
      cases hc : isQuote c with
      | false =>
        rw [show toggle none c = none by simp [toggle, hc]] at outside
        exact .plain hc (ih.1 outside)
      | true =>
        rw [show toggle none c = some c by simp [toggle, hc]] at outside
        obtain ⟨inside, rest, rfl, first, h⟩ := ih.2 c outside
        exact .quoted hc first h
    · intro q outside
      rw [List.foldl_cons] at outside
      by_cases same : c = q
      · obtain rfl := same
        rw [show toggle (some c) c = none by simp [toggle]] at outside
        exact ⟨[], cs, rfl, by simp, ih.1 outside⟩
      · rw [show toggle (some q) c = some q by simp [toggle, same]] at outside
        obtain ⟨inside, rest, rfl, first, h⟩ := ih.2 q outside
        exact ⟨c :: inside, rest, rfl, by simp [first, Ne.symm same], h⟩

/-- **A text ends outside quotes** when no quote is open after it. -/
theorem unquoted_iff {cs : List Char} : Unquoted cs ↔ cs.foldl toggle none = none :=
  ⟨Unquoted.foldl_toggle, (unquoted_of_foldl_toggle cs).1⟩

instance : DecidablePred Unquoted := fun _ => decidable_of_iff _ unquoted_iff.symm

/-! ## The parentheses of a text -/

/-- The parenthesis that a character is. -/
def side? (c : Char) : Option Side :=
  if c == '(' then some .opening else if c == ')' then some .closing else none

/-- The parentheses of a text behind another one, each with its offset in bytes, where the text
before them is of some kind. -/
def parens (outside : List Char → Prop) [DecidablePred outside] (before : List Char) :
    List Char → List (Nat × Side)
  | [] => []
  | c :: rest =>
    (if outside before then
      (side? c).toList.map fun side => ((String.ofList before).utf8ByteSize, side)
    else []) ++ parens outside (before ++ [c]) rest

/-- The fault that counting finds in a sequence of parentheses, from a number of open ones on. -/
def faultOf (depth : Nat) : List (Nat × Side) → Option ParenFault
  | [] => if depth = 0 then none else some (.unclosed depth)
  | (_, .opening) :: w => faultOf (depth + 1) w
  | (offset, .closing) :: w => match depth with
    | 0 => some (.extraClosing offset)
    | outer + 1 => faultOf outer w

theorem side?_eq_none_of_isQuote {c : Char} (h : isQuote c = true) : side? c = none := by
  simp only [isQuote, Bool.or_eq_true, beq_iff_eq] at h
  rcases h with rfl | rfl <;> rfl

theorem utf8ByteSize_concat (before : List Char) (c : Char) :
    (String.ofList (before ++ [c])).utf8ByteSize =
      (String.ofList before).utf8ByteSize + c.utf8Size := by
  simp

/-- **The scan of parentheses** finds the fault of the sequence outside quoted text. -/
theorem parenFaultFrom_eq (before cs : List Char) (depth : Nat) :
    parenFaultFrom (before.foldl toggle none) depth (String.ofList before).utf8ByteSize cs =
      faultOf depth (parens Unquoted before cs) := by
  induction cs generalizing before depth with
  | nil => rfl
  | cons c cs ih =>
    have next := ih (before ++ [c])
    rw [List.foldl_concat, utf8ByteSize_concat] at next
    simp only [parens, unquoted_iff]
    cases open_ : before.foldl toggle none with
    | some q =>
      rw [open_] at next
      rw [if_neg (by simp), List.nil_append, ← next, parenFaultFrom]
      rfl
    | none =>
      rw [open_] at next
      rw [if_pos rfl]
      simp only [parenFaultFrom]
      by_cases quote : isQuote c = true
      · rw [if_pos quote, side?_eq_none_of_isQuote quote]
        simpa [toggle, quote] using next depth
      · have stays : toggle none c = none := by simp [toggle, quote]
        rw [stays] at next
        rw [if_neg quote]
        by_cases opens : c = '('
        · obtain rfl := opens
          exact next (depth + 1)
        · by_cases closes : c = ')'
          · obtain rfl := closes
            cases depth with
            | zero => rfl
            | succ outer => exact next outer
          · simpa [side?, opens, closes] using next depth

/-- The parentheses of a text outside quotes. -/
def unquotedParens (sql : String) : List (Nat × Side) :=
  parens Unquoted [] sql.toList

/-- Their sequence. -/
def unquotedSides (sql : String) : List Side :=
  (unquotedParens sql).map (·.2)

theorem parenFault?_eq (sql : String) : parenFault? sql = faultOf 0 (unquotedParens sql) :=
  parenFaultFrom_eq [] sql.toList 0

/-! ## What counting finds -/

/-- Counting finds nothing, or what is left open, in a sequence that needs no more parentheses than
are open. -/
theorem faultOf_of_demand_le {w : List (Nat × Side)} {depth : Nat}
    (h : demand (w.map (·.2)) ≤ depth) :
    faultOf depth w =
      if depth - demand (w.map (·.2)) + offer (w.map (·.2)) = 0 then none
      else some (.unclosed (depth - demand (w.map (·.2)) + offer (w.map (·.2)))) := by
  induction w generalizing depth with
  | nil => simp [faultOf, demand, offer]
  | cons p w ih =>
    obtain ⟨offset, _ | _⟩ := p
    · simp only [List.map_cons, demand, offer] at h ⊢
      rw [faultOf, ih (by omega)]
      have same : depth + 1 - demand (w.map (·.2)) + offer (w.map (·.2)) =
          depth - (demand (w.map (·.2)) - 1) +
            if demand (w.map (·.2)) = 0 then offer (w.map (·.2)) + 1
            else offer (w.map (·.2)) := by
        split <;> omega
      rw [same]
    · simp only [List.map_cons, demand, offer] at h ⊢
      cases depth with
      | zero => omega
      | succ outer =>
        rw [faultOf, ih (by omega), Nat.add_sub_add_right]

/-- Counting stops at the first parenthesis that closes too much. -/
theorem faultOf_append {u w : List (Nat × Side)} {depth offset : Nat}
    (needs : demand (u.map (·.2)) = depth) (leaves : offer (u.map (·.2)) = 0) :
    faultOf depth (u ++ (offset, .closing) :: w) = some (.extraClosing offset) := by
  induction u generalizing depth with
  | nil =>
    obtain rfl := needs
    rfl
  | cons p u ih =>
    obtain ⟨place, _ | _⟩ := p
    · simp only [List.map_cons, demand, offer] at needs leaves
      have closed : demand (u.map (·.2)) ≠ 0 := by
        intro never
        simp [never] at leaves
      rw [if_neg closed] at leaves
      rw [List.cons_append, faultOf]
      exact ih (by omega) leaves
    · simp only [List.map_cons, demand, offer] at needs leaves
      obtain rfl := needs
      rw [List.cons_append, faultOf]
      exact ih rfl leaves

/-! ## What the check says -/

theorem parenIssues_of_fault {sql : String} {fault : ParenFault}
    (h : faultOf 0 (unquotedParens sql) = some fault) : parenIssues sql = [fault.issue] := by
  rw [parenIssues, parenFault?_eq, h]
  rfl

/-- What is said about a sequence that needs no parenthesis before it. -/
theorem parenIssues_of_demand_eq_zero {sql : String} (needs : demand (unquotedSides sql) = 0) :
    parenIssues sql = if offer (unquotedSides sql) = 0 then []
      else [(ParenFault.unclosed (offer (unquotedSides sql))).issue] := by
  have none_needed : demand ((unquotedParens sql).map (·.2)) ≤ 0 := Nat.le_of_eq needs
  have found := faultOf_of_demand_le none_needed
  rw [Nat.zero_sub, Nat.zero_add] at found
  rw [parenIssues, parenFault?_eq, found, unquotedSides]
  split <;> rfl

/-- A sequence that needs a parenthesis before it has a first one that closes too much: the others
before it that close have their partners. -/
theorem exists_stray_of_demand_pos {sql : String} (needs : 0 < demand (unquotedSides sql)) :
    ∃ k offset, (unquotedParens sql)[k]? = some (offset, .closing) ∧
      ¬ IsPaired (unquotedSides sql) k ∧
      (∀ j < k, (unquotedSides sql)[j]? = some .closing → IsPaired (unquotedSides sql) j) ∧
      parenIssues sql = [(ParenFault.extraClosing offset).issue] := by
  obtain ⟨before, behind, cut, nothing, leaves⟩ := exists_of_lt_demand needs
  obtain ⟨u, w, marks, rfl, rest⟩ := List.map_eq_append_iff.mp cut
  obtain ⟨⟨offset, side⟩, w, rfl, same, rfl⟩ := List.map_eq_cons_iff.mp rest
  obtain rfl : side = .closing := same
  refine ⟨u.length, offset, by simp [marks], ?_, ?_, ?_⟩
  · rw [cut]
    simpa using stray_of_offer_eq_zero leaves
  · intro j hj closes
    rw [cut] at closes ⊢
    exact isPaired_of_demand_eq_zero nothing
      (by rwa [List.getElem?_append_left (by simpa using hj)] at closes)
  · refine parenIssues_of_fault ?_
    rw [marks]
    exact faultOf_append nothing leaves

/-- **Nothing** is said about a text whose parentheses outside quotes are in balance. -/
theorem parenIssues_eq_nil_iff (sql : String) :
    parenIssues sql = [] ↔ WellNested (unquotedSides sql) := by
  rw [wellNested_iff]
  by_cases needs : demand (unquotedSides sql) = 0
  · rw [parenIssues_of_demand_eq_zero needs]
    simp [needs]
  · obtain ⟨k, offset, -, -, -, issue⟩ := exists_stray_of_demand_pos (Nat.pos_of_ne_zero needs)
    simp [issue, needs]

/-- **The check of parentheses decides balance.**  With quoted text left out, it says nothing
exactly when the parentheses are in balance; it says where the first one stands, in bytes, that
closes without a partner, if there is one; and else how many open without a partner.  It never says
more than one of these. -/
theorem parenIssues_decide (sql : String) :
    (parenIssues sql = [] ↔ WellNested (unquotedSides sql)) ∧
    ((∃ k, (unquotedSides sql)[k]? = some .closing ∧ ¬ IsPaired (unquotedSides sql) k) →
      ∃ k offset, (unquotedParens sql)[k]? = some (offset, .closing) ∧
        ¬ IsPaired (unquotedSides sql) k ∧
        (∀ j < k, (unquotedSides sql)[j]? = some .closing → IsPaired (unquotedSides sql) j) ∧
        parenIssues sql =
          [{ severity := .error, message := "Unbalanced parentheses: extra closing parenthesis",
             location := some ("Position " ++ toString offset) }]) ∧
    ((∀ k, (unquotedSides sql)[k]? = some .closing → IsPaired (unquotedSides sql) k) →
      ¬ WellNested (unquotedSides sql) →
        parenIssues sql =
          [{ severity := .error
             message := "Unbalanced parentheses: " ++
               toString (unpaired (unquotedSides sql)).ncard ++ " unclosed"
             suggestion := some "Add the missing closing parenthesis" }]) := by
  refine ⟨parenIssues_eq_nil_iff sql, ?_, ?_⟩
  · rintro ⟨k, closes, single⟩
    exact exists_stray_of_demand_pos (demand_pos_of_stray closes single)
  · intro paired unbalanced
    have needs : demand (unquotedSides sql) = 0 := by
      by_contra needed
      obtain ⟨k, offset, closes, single, -⟩ :=
        exists_stray_of_demand_pos (Nat.pos_of_ne_zero needed)
      exact single (paired k (by simp [unquotedSides, closes]))
    have leaves : offer (unquotedSides sql) ≠ 0 := by
      intro nothing
      exact unbalanced (wellNested_of_demand_offer needs nothing)
    rw [parenIssues_of_demand_eq_zero needs, if_neg leaves, ncard_unpaired]
    rfl

/-- The first parenthesis stands in quotes, so the second one closes too much; the letter before it
takes two bytes. -/
example : parenIssues "'('é)" = [(ParenFault.extraClosing 5).issue] := by
  decide

end MeasureSql.Validation
