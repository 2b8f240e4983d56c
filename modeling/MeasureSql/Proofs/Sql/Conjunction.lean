import Mathlib.Data.List.Basic
import MeasureSql.Proofs.Sql.Signs

/-!
# Conditions joined by `AND`

`AND` binds more tightly than `OR`.  So a text is a disjunction when an `OR` stands outside all its
brackets, and otherwise a conjunction of the parts between the `AND`s outside them.  The `AND` of a
`BETWEEN` joins nothing: it closes what the `BETWEEN` opened, as `END` closes a `CASE`.

Conditions that are joined by `AND` are the conjuncts of the whole exactly when none of them is a
disjunction, unless there is only one.

## Main definitions

* `items?` — a text cut into words and marks.
* `isReadable` — is a text not empty, and is every bracket in it closed?
* `isDisjunction`, `conjuncts` — how a text is read.

## Main results

* `items?_append` — a text is cut part by part.
* `conjuncts_intercalate_iff` — when the conjuncts of conditions are those of the whole.
-/

namespace MeasureSql.Sql.Reading

/-! ## Words and marks -/

/-- A run of characters, or a mark. -/
inductive Item where
  | word (text : String)
  | mark (c : Char)
  deriving DecidableEq, Repr

/-- The item of what is finished; an open quote is none. -/
def finished : Mode → Option (List Item)
  | .between => some []
  | .word run => some [.word (String.ofList run.reverse)]
  | .quoted _ _ => none

/-- Does a comment begin with the two characters? -/
def beginsComment (c : Char) (next : Option Char) : Bool :=
  (c == '-' && next == some '-') || (c == '/' && next == some '*')

/-- A character between runs: blanks only separate. -/
def separated (c : Char) : List Item :=
  if Text.isBlank c then [] else [.mark c]

/-- The items of the rest of a text. -/
def itemsFrom : Mode → List Char → Option (List Item)
  | m, [] => finished m
  | m, c :: cs => match absorb m c with
    | some m' => itemsFrom m' cs
    | none =>
      if beginsComment c cs.head? then none
      else (finished m).bind fun before => (itemsFrom .between cs).map (before ++ separated c ++ ·)

/-- **The words and marks of a text**, if it has no comment and no open quote. -/
def items? (text : String) : Option (List Item) :=
  itemsFrom .between text.toList

theorem absorb_eq_none {m : Mode} {c : Char} (hm : ∀ close run, m ≠ .quoted close run)
    (hc : endsRun c = true) : absorb m c = none := by
  simp only [endsRun, Bool.or_eq_true, beq_iff_eq] at hc
  cases m with
  | between => rcases hc with ((rfl | rfl) | rfl) | rfl <;> rfl
  | word run => rcases hc with ((rfl | rfl) | rfl) | rfl <;> rfl
  | quoted close run => exact absurd rfl (hm close run)

/-- What ends a run begins no comment, and does not go on with one. -/
theorem beginsComment_of_endsRun {c d : Char} (hd : endsRun d = true) (next : Option Char) :
    beginsComment d next = false ∧ beginsComment c (some d) = false := by
  simp only [endsRun, Bool.or_eq_true, beq_iff_eq] at hd
  rcases hd with ((rfl | rfl) | rfl) | rfl <;> simp [beginsComment]

/-- A character that ends runs stands for itself. -/
theorem itemsFrom_cons {c : Char} (hc : endsRun c = true) (cs : List Char) :
    itemsFrom .between (c :: cs) = (itemsFrom .between cs).map (separated c ++ ·) := by
  have habsorb : absorb .between c = none := absorb_eq_none (by simp) hc
  rw [itemsFrom]
  simp [habsorb, (beginsComment_of_endsRun (c := c) hc cs.head?).1, finished]

/-- What is finished comes before the rest. -/
theorem itemsFrom_finished {m : Mode} {before : List Item} (h : finished m = some before)
    {rest : List Char} (hrest : EndsRun rest) :
    itemsFrom m rest = (itemsFrom .between rest).map (before ++ ·) := by
  cases rest with
  | nil =>
    have hnil : itemsFrom .between [] = some [] := rfl
    rw [hnil, itemsFrom, h]
    simp
  | cons c cs =>
    have hc : endsRun c = true := hrest c rfl
    have habsorb : absorb m c = none := by
      refine absorb_eq_none (fun close run heq => ?_) hc
      simp [heq, finished] at h
    rw [itemsFrom_cons hc, itemsFrom]
    simp [habsorb, (beginsComment_of_endsRun (c := c) hc cs.head?).1, h, Function.comp_def]

/-- **A text is cut part by part**, where a part ends with the run it is in. -/
theorem itemsFrom_append {m : Mode} {cs : List Char} {is : List Item}
    (h : itemsFrom m cs = some is) {rest : List Char} (hrest : EndsRun rest) :
    itemsFrom m (cs ++ rest) = (itemsFrom .between rest).map (is ++ ·) := by
  fun_induction itemsFrom m cs generalizing is with
  | case1 m => exact itemsFrom_finished h hrest
  | case2 m c cs m' hc ih =>
    rw [List.cons_append, itemsFrom, hc]
    exact ih h
  | case3 => cases h
  | case4 m c cs hc hcomment ih =>
    have hcomment' : beginsComment c (cs ++ rest).head? = false := by
      cases cs with
      | cons d cs => simpa using hcomment
      | nil =>
        cases rest with
        | nil => simpa using hcomment
        | cons d rest => exact (beginsComment_of_endsRun (hrest d rfl) none).2
    obtain ⟨before, hbefore, hmap⟩ := Option.bind_eq_some_iff.mp h
    obtain ⟨is', his', rfl⟩ := Option.map_eq_some_iff.mp hmap
    rw [List.cons_append, itemsFrom]
    simp only [hc, hcomment', hbefore, ih his']
    simp [Function.comp_def]

section Parts

variable {a b : String} {is js : List Item}

theorem items?_append (ha : items? a = some is) (hb : items? b = some js)
    (hends : EndsRun b.toList) : items? (a ++ b) = some (is ++ js) := by
  have hitems := itemsFrom_append ha hends
  rw [items?] at hb ⊢
  rw [String.toList_append, hitems, hb]
  rfl

/-- A text after a blank or after a mark that ends runs. -/
theorem items?_cons (c : Char) (hc : endsRun c = true) (hb : b.toList = [c])
    (ha : items? a = some is) : items? (b ++ a) = some (separated c ++ is) := by
  rw [items?] at ha ⊢
  rw [String.toList_append, hb, List.cons_append, List.nil_append, itemsFrom_cons hc, ha]
  rfl

theorem endsRun_append (c : Char) (hc : endsRun c = true) (ha : a.toList.head? = some c)
    (b : String) : EndsRun (a ++ b).toList := by
  intro d hd
  have hhead : (a ++ b).toList.head? = some c := by
    rw [String.toList_append, List.head?_append, ha]
    rfl
  rw [hhead] at hd
  cases hd
  exact hc

/-- A sign is a mark when no other sign follows. -/
theorem items?_minus (ha : items? a = some is) (hsign : a.toList.head? ≠ some '-') :
    items? ("-" ++ a) = some (.mark '-' :: is) := by
  rw [items?] at ha ⊢
  have htext : ("-" ++ a).toList = '-' :: a.toList := by simp
  have habsorb : absorb .between '-' = none := rfl
  have hcomment : beginsComment '-' a.toList.head? = false := by simpa [beginsComment] using hsign
  rw [htext, itemsFrom]
  simp only [habsorb, hcomment, Bool.false_eq_true, if_false, finished, Option.bind_some, ha,
    Option.map_some]
  rfl

/-- An operand is one word. -/
theorem items?_operand (h : isOperand a = true) : items? a = some [.word a] := by
  simp only [isOperand, Bool.and_eq_true] at h
  split at h
  · next run habsorb =>
    have heq : run = a.toList.reverse := by simpa [Mode.run] using absorbAll_run habsorb
    have hfrom : ∀ {m m' : Mode} {cs : List Char}, absorbAll m cs = some m' →
        itemsFrom m cs = finished m' := by
      intro m m' cs hcs
      induction cs generalizing m with
      | nil =>
        cases hcs
        rfl
      | cons c cs ih =>
        rw [absorbAll_cons] at hcs
        obtain ⟨m₁, hc, hcs⟩ := Option.bind_eq_some_iff.mp hcs
        rw [itemsFrom]
        simp only [hc]
        exact ih hcs
    rw [items?, hfrom habsorb, finished, heq, List.reverse_reverse, String.ofList_toList]
  · cases h.1

end Parts

/-! ## Brackets -/

/-- What can be open; a bracket that closes nothing stays. -/
inductive Bracket where
  | paren
  | case
  | between
  | stray
  deriving DecidableEq, Repr

/-- What an item does to the structure of a condition. -/
inductive Role where
  | and
  | or
  | opens (b : Bracket)
  | closes (b : Bracket)
  | plain
  deriving DecidableEq, Repr

/-- The role of a word. -/
def wordRole (text : String) : Role :=
  match Text.asciiUpper text with
  | "AND" => .and
  | "OR" => .or
  | "CASE" => .opens .case
  | "END" => .closes .case
  | "BETWEEN" => .opens .between
  | _ => .plain

/-- The role of an item. -/
def Item.role : Item → Role
  | .word text => wordRole text
  | .mark '(' => .opens .paren
  | .mark ')' => .closes .paren
  | .mark _ => .plain

/-- The open brackets after an item, the innermost first. -/
def shift (stack : List Bracket) (i : Item) : List Bracket :=
  match i.role, stack with
  | .opens b, stack => b :: stack
  | .closes b, top :: stack =>
    if b ≠ .stray ∧ b = top then stack else .stray :: top :: stack
  | .closes _, [] => [.stray]
  | .and, .between :: stack => stack
  | _, stack => stack

/-- The open brackets after some items. -/
def brackets (stack : List Bracket) (is : List Item) : List Bracket :=
  is.foldl shift stack

/-- Does an item of the role stand outside all brackets? -/
def standsOutside (r : Role) : List Bracket → List Item → Bool
  | _, [] => false
  | stack, i :: is => (stack.isEmpty && i.role == r) || standsOutside r (shift stack i) is

/-- The parts between the `AND`s that stand outside all brackets. -/
def parts : List Bracket → List Item → List (List Item)
  | _, [] => [[]]
  | stack, i :: is =>
    if stack.isEmpty && i.role == .and then [] :: parts stack is
    else match parts (shift stack i) is with
      | [] => [[i]]
      | part :: rest => (i :: part) :: rest

/-- The items of which a condition is the conjunction: a disjunction is one by itself. -/
def conjunctsOf (is : List Item) : List (List Item) :=
  if standsOutside .or [] is then [is] else parts [] is

/-- Is the text not empty, and is every bracket in it closed? -/
def isReadable (text : String) : Bool :=
  match items? text with
  | some is => !is.isEmpty && brackets [] is == []
  | none => false

/-- **Is the text a disjunction?** -/
def isDisjunction (text : String) : Bool :=
  match items? text with
  | some is => standsOutside .or [] is
  | none => false

/-- **The conjuncts of a text**; a text that cannot be read has none. -/
def conjuncts (text : String) : List (List Item) :=
  match items? text with
  | some is => conjunctsOf is
  | none => []

example : conjuncts "a > 1 AND d BETWEEN 2 AND 3" =
    [[.word "a", .mark '>', .word "1"],
      [.word "d", .word "BETWEEN", .word "2", .word "AND", .word "3"]] := by
  decide +kernel

theorem isReadable_iff {text : String} : isReadable text = true ↔
    ∃ is, items? text = some is ∧ is ≠ [] ∧ brackets [] is = [] := by
  unfold isReadable
  cases items? text with
  | none => simp
  | some is => simp

@[simp] theorem brackets_nil (stack : List Bracket) : brackets stack [] = stack := rfl

@[simp] theorem brackets_cons (stack : List Bracket) (i : Item) (is : List Item) :
    brackets stack (i :: is) = brackets (shift stack i) is := rfl

theorem brackets_append (stack : List Bracket) (is js : List Item) :
    brackets stack (is ++ js) = brackets (brackets stack is) js :=
  List.foldl_append

/-- A bracket that closes nothing stays. -/
theorem stray_mem_brackets {stack : List Bracket} (h : .stray ∈ stack) (is : List Item) :
    .stray ∈ brackets stack is := by
  induction is generalizing stack with
  | nil => exact h
  | cons i is ih =>
    refine ih ?_
    unfold shift
    split
    · exact List.mem_cons_of_mem _ h
    · next b top stack =>
      split
      · next heq =>
        rcases List.mem_cons.mp h with htop | h
        · exact absurd (heq.2.trans htop.symm) heq.1
        · exact h
      · exact List.mem_cons_self
    · cases h
    · exact (List.mem_cons.mp h).resolve_left (by simp)
    · exact h

/-- Brackets that are closed again are so under any bracket but a `BETWEEN`, whose `AND` may be
among the items. -/
theorem shift_under {stack base : List Bracket} {i : Item} {is : List Item}
    (h : brackets stack (i :: is) = []) (hbase : base.head? ≠ some .between) :
    shift (stack ++ base) i = shift stack i ++ base := by
  have hstray : .stray ∉ shift stack i := by
    intro hmem
    have hmem' := stray_mem_brackets hmem is
    rw [← brackets_cons, h] at hmem'
    cases hmem'
  unfold shift at hstray ⊢
  cases hrole : i.role with
  | opens b => rfl
  | closes b =>
    cases stack with
    | nil => simp [hrole] at hstray
    | cons top stack =>
      by_cases htop : b ≠ .stray ∧ b = top
      · show (if _ then _ else _) = (if _ then _ else _) ++ base
        rw [if_pos htop, if_pos htop]
        rfl
      · simp [hrole, htop] at hstray
  | and =>
    cases stack with
    | nil =>
      cases base with
      | nil => rfl
      | cons top base =>
        cases top with
        | between => exact absurd rfl hbase
        | _ => rfl
    | cons top stack => cases top <;> rfl
  | or => cases stack <;> rfl
  | plain => cases stack <;> rfl

/-- What closes its brackets leaves those around it open, and nothing in it stands outside them. -/
theorem brackets_under (r : Role) {stack base : List Bracket} {is : List Item}
    (h : brackets stack is = []) (hne : base ≠ []) (hbase : base.head? ≠ some .between) :
    brackets (stack ++ base) is = base ∧ standsOutside r (stack ++ base) is = false := by
  induction is generalizing stack with
  | nil =>
    have hnil : stack = [] := h
    rw [hnil]
    exact ⟨rfl, rfl⟩
  | cons i is ih =>
    obtain ⟨hbrackets, houtside⟩ := ih h
    rw [brackets_cons, standsOutside, shift_under h hbase]
    exact ⟨hbrackets, by simp [hne, houtside]⟩

/-- Items are looked at one after the other. -/
theorem standsOutside_append (r : Role) (stack : List Bracket) (is js : List Item) :
    standsOutside r stack (is ++ js) =
      (standsOutside r stack is || standsOutside r (brackets stack is) js) := by
  induction is generalizing stack with
  | nil => rfl
  | cons i is ih => simp [standsOutside, ih, Bool.or_assoc]

/-! ## Joining -/

section Joining

variable {sep : Item} {stack : List Bracket} {is js : List Item}

theorem parts_ne_nil (stack : List Bracket) (is : List Item) : parts stack is ≠ [] := by
  cases is with
  | nil => simp [parts]
  | cons i is =>
    rw [parts]
    split
    · simp
    · split
      · simp
      · simp

theorem conjunctsOf_ne_nil (is : List Item) : conjunctsOf is ≠ [] := by
  rw [conjunctsOf]
  split
  · simp
  · exact parts_ne_nil _ _

/-- Outside all brackets an `AND` leaves none open. -/
theorem shift_and (hsep : sep.role = .and) : shift [] sep = [] := by
  simp [shift, hsep]

/-- The parts of what closes its brackets come before those of what follows an `AND`. -/
theorem parts_join (hsep : sep.role = .and) (h : brackets stack is = []) :
    parts stack (is ++ sep :: js) = parts stack is ++ parts [] js := by
  induction is generalizing stack with
  | nil =>
    have hnil : stack = [] := h
    simp [parts, hnil, hsep]
  | cons i is ih =>
    rw [List.cons_append, parts, parts]
    by_cases hcut : (stack.isEmpty && i.role == .and) = true
    · have hstack : shift stack i = stack := by
        simp only [Bool.and_eq_true, List.isEmpty_iff, beq_iff_eq] at hcut
        rw [hcut.1, shift_and hcut.2]
      rw [brackets_cons, hstack] at h
      simp [hcut, ih h]
    · rw [if_neg hcut, if_neg hcut, ih h]
      cases hparts : parts (shift stack i) is with
      | nil => exact absurd hparts (parts_ne_nil _ _)
      | cons part rest => rfl

/-- Conditions that close their brackets, joined by `AND`: they are closed, and both an `OR` outside
brackets and the parts between `AND`s are found in one of them. -/
theorem joined_spec (hsep : sep.role = .and) {conditions : List (List Item)}
    (hne : conditions ≠ []) (h : ∀ is ∈ conditions, brackets [] is = []) :
    brackets [] ([sep].intercalate conditions) = [] ∧
      standsOutside .or [] ([sep].intercalate conditions) =
        conditions.any (standsOutside .or []) ∧
      parts [] ([sep].intercalate conditions) = conditions.flatMap (parts []) := by
  induction conditions with
  | nil => exact absurd rfl hne
  | cons is rest ih =>
    have his := h is List.mem_cons_self
    by_cases hrest : rest = []
    · subst hrest
      simp [List.intercalate, his]
    · obtain ⟨hclosed, hor, hparts⟩ := ih hrest fun js hjs => h js (List.mem_cons_of_mem _ hjs)
      have hjoined : [sep].intercalate (is :: rest) = is ++ sep :: [sep].intercalate rest := by
        rw [List.intercalate_cons_of_ne_nil hrest]
        simp
      rw [hjoined]
      refine ⟨?_, ?_, ?_⟩
      · rw [brackets_append, his, brackets_cons, shift_and hsep, hclosed]
      · have hrole : (Role.and == Role.or) = false := by decide
        rw [standsOutside_append, his, standsOutside, hsep, shift_and hsep, hor, hrole,
          Bool.and_false, Bool.false_or, List.any_cons]
      · rw [parts_join hsep his, hparts, List.flatMap_cons]

/-- **The conjuncts of conditions are those of the whole** exactly when none of them is a
disjunction, or there is only one. -/
theorem conjunctsOf_intercalate_iff (hsep : sep.role = .and) {conditions : List (List Item)}
    (hne : conditions ≠ []) (h : ∀ is ∈ conditions, brackets [] is = []) :
    conjunctsOf ([sep].intercalate conditions) = conditions.flatMap conjunctsOf ↔
      conditions.length ≤ 1 ∨ ∀ is ∈ conditions, standsOutside .or [] is = false := by
  obtain ⟨-, hor, hparts⟩ := joined_spec hsep hne h
  by_cases hall : ∀ is ∈ conditions, standsOutside .or [] is = false
  · have hnone : conditions.any (standsOutside .or []) = false := by simpa using hall
    have heach : conditions.flatMap conjunctsOf = conditions.flatMap (parts []) := by
      refine List.flatMap_congr fun is his => ?_
      simp [conjunctsOf, hall is his]
    simp only [iff_true_intro hall, or_true, iff_true]
    rw [conjunctsOf, hor, hnone, heach, hparts]
    rfl
  · have hsome : conditions.any (standsOutside .or []) = true := by simpa using hall
    simp only [hall, or_false]
    rw [conjunctsOf, hor, hsome, if_pos rfl]
    match conditions, hne with
    | [is], _ =>
      have honly : standsOutside .or [] is = true := by simpa using hsome
      simp [conjunctsOf, honly, List.intercalate]
    | is :: js :: rest, _ =>
      -- One conjunct cannot be two.
      refine iff_of_false (fun heq => ?_) (by simp)
      have hlength := congrArg List.length heq
      have hfirst := List.length_pos_iff.mpr (conjunctsOf_ne_nil is)
      have hsecond := List.length_pos_iff.mpr (conjunctsOf_ne_nil js)
      simp only [List.flatMap_cons, List.length_append, List.length_singleton] at hlength
      omega

end Joining

/-! ## Reading part by part -/

section Reads

variable {a b : String} {o o' : Bool}

/-- The text can be read, and is a disjunction or none. -/
def Reads (text : String) (disjunction : Bool) : Prop :=
  isReadable text = true ∧ isDisjunction text = disjunction

instance (text : String) (disjunction : Bool) : Decidable (Reads text disjunction) :=
  inferInstanceAs (Decidable (_ ∧ _))

theorem reads_iff : Reads a o ↔ ∃ is, items? a = some is ∧ is ≠ [] ∧ brackets [] is = [] ∧
    standsOutside .or [] is = o := by
  rw [Reads, isReadable_iff, isDisjunction]
  cases items? a with
  | none => simp
  | some is => simp [and_assoc]

namespace Reads

/-- A text with another one after it is a disjunction when one of them is. -/
theorem append (ha : Reads a o) (hb : Reads b o') (hends : EndsRun b.toList) :
    Reads (a ++ b) (o || o') := by
  obtain ⟨is, his, hne, hclosed, rfl⟩ := reads_iff.mp ha
  obtain ⟨js, hjs, -, hclosed', rfl⟩ := reads_iff.mp hb
  refine reads_iff.mpr ⟨is ++ js, items?_append his hjs hends, by simp [hne], ?_, ?_⟩
  · rw [brackets_append, hclosed, hclosed']
  · rw [standsOutside_append, hclosed]

theorem blank (ha : Reads a o) : Reads (" " ++ a) o := by
  obtain ⟨is, his, hne, hclosed, rfl⟩ := reads_iff.mp ha
  have hitems : items? (" " ++ a) = some (separated ' ' ++ is) := items?_cons ' ' rfl rfl his
  exact reads_iff.mpr ⟨is, hitems, hne, hclosed, rfl⟩

/-- **A text in parentheses is no disjunction.** -/
theorem paren (ha : Reads a o) : Reads ("(" ++ a ++ ")") false := by
  obtain ⟨is, his, -, hclosed, rfl⟩ := reads_iff.mp ha
  have hclose : items? ")" = some [.mark ')'] := rfl
  have hinside : items? (a ++ ")") = some (is ++ [.mark ')']) :=
    items?_append his hclose (by rintro c ⟨⟩; rfl)
  have hopen : separated '(' = [.mark '('] := rfl
  have hitems : items? ("(" ++ (a ++ ")")) = some (separated '(' ++ (is ++ [.mark ')'])) :=
    items?_cons '(' rfl rfl hinside
  rw [hopen] at hitems
  have hunder : brackets ([] ++ [.paren]) is = [.paren] ∧
      standsOutside .or ([] ++ [.paren]) is = false :=
    brackets_under .or hclosed (by simp) (by simp)
  obtain ⟨hbrackets, houtside⟩ := hunder
  rw [List.nil_append] at hbrackets houtside
  rw [String.append_assoc]
  refine reads_iff.mpr ⟨_, hitems, by simp, ?_, ?_⟩
  · show brackets [.paren] (is ++ [.mark ')']) = []
    rw [brackets_append, hbrackets]
    rfl
  · show standsOutside .or [.paren] (is ++ [.mark ')']) = false
    rw [standsOutside_append, hbrackets, houtside]
    rfl

/-- A sign before a text changes nothing, unless a sign stands there. -/
theorem minus (ha : Reads a o) (hsign : a.toList.head? ≠ some '-') : Reads ("-" ++ a) o := by
  obtain ⟨is, his, -, hclosed, rfl⟩ := reads_iff.mp ha
  exact reads_iff.mpr ⟨.mark '-' :: is, items?_minus his hsign, by simp, hclosed, by
    simp [standsOutside, Item.role, shift]⟩

/-- An operand is one word; no word that is a keyword of conditions is one. -/
theorem operand (ha : isOperand a = true) (hrole : wordRole a = .plain) : Reads a false := by
  refine reads_iff.mpr ⟨[.word a], items?_operand ha, by simp, ?_, ?_⟩
  · simp [shift, Item.role, hrole]
  · simp [standsOutside, Item.role, hrole]

end Reads

end Reads

/-! ## Texts joined by `AND` -/

theorem items?_intercalate {conditions : List String} (hne : conditions ≠ [])
    (h : ∀ c ∈ conditions, isReadable c = true) :
    items? (" AND ".intercalate conditions) =
      some ([Item.word "AND"].intercalate (conditions.map fun c => (items? c).getD [])) := by
  induction conditions with
  | nil => exact absurd rfl hne
  | cons c rest ih =>
    obtain ⟨is, his, -, -⟩ := isReadable_iff.mp (h c List.mem_cons_self)
    by_cases hrest : rest = []
    · subst hrest
      simp [List.intercalate, his]
    · have hitems := ih hrest fun c hc => h c (List.mem_cons_of_mem _ hc)
      have htext : " AND ".intercalate (c :: rest) =
          c ++ (" AND" ++ (" " ++ " AND ".intercalate rest)) := by
        rw [← String.toList_inj]
        simp [String.toList_intercalate, List.intercalate_cons_of_ne_nil, hrest]
      have hblank : items? (" " ++ " AND ".intercalate rest) = _ := items?_cons ' ' rfl rfl hitems
      have hword : items? " AND" = some [.word "AND"] := rfl
      have hends : ∀ b : String, EndsRun (" " ++ b).toList ∧ EndsRun (" AND" ++ b).toList :=
        fun b => ⟨endsRun_append ' ' rfl rfl b, endsRun_append ' ' rfl rfl b⟩
      have hafter := items?_append hword hblank (hends _).1
      rw [htext, items?_append his hafter (hends _).2, List.map_cons,
        List.intercalate_cons_of_ne_nil (by simpa using hrest), his]
      simp [separated, Text.isBlank]

/-- **Conditions joined by `AND` are read as their conjunction** exactly when none of them is a
disjunction, or there is only one. -/
theorem conjuncts_intercalate_iff {conditions : List String} (hne : conditions ≠ [])
    (h : ∀ c ∈ conditions, isReadable c = true) :
    conjuncts (" AND ".intercalate conditions) = conditions.flatMap conjuncts ↔
      conditions.length ≤ 1 ∨ ∀ c ∈ conditions, isDisjunction c = false := by
  have hread : ∀ c ∈ conditions, ∃ is, items? c = some is ∧ brackets [] is = [] := by
    intro c hc
    obtain ⟨is, his, -, hclosed⟩ := isReadable_iff.mp (h c hc)
    exact ⟨is, his, hclosed⟩
  have hclosed : ∀ is ∈ conditions.map fun c => (items? c).getD [], brackets [] is = [] := by
    intro is hmem
    obtain ⟨c, hc, rfl⟩ := List.mem_map.mp hmem
    obtain ⟨is, his, hclosed⟩ := hread c hc
    rwa [his]
  have hsep : (Item.word "AND").role = .and := rfl
  have hmain := conjunctsOf_intercalate_iff hsep (by simpa using hne) hclosed
  have heach : (conditions.map fun c => (items? c).getD []).flatMap conjunctsOf =
      conditions.flatMap conjuncts := by
    rw [List.flatMap_map]
    refine List.flatMap_congr fun c hc => ?_
    obtain ⟨is, his, -⟩ := hread c hc
    simp [conjuncts, his]
  have hor : (∀ is ∈ conditions.map fun c => (items? c).getD [], standsOutside .or [] is = false) ↔
      ∀ c ∈ conditions, isDisjunction c = false := by
    rw [List.forall_mem_map]
    refine forall₂_congr fun c hc => ?_
    obtain ⟨is, his, -⟩ := hread c hc
    simp [isDisjunction, his]
  rw [conjuncts, items?_intercalate hne h]
  rw [heach, hor, List.length_map] at hmain
  exact hmain

end MeasureSql.Sql.Reading
