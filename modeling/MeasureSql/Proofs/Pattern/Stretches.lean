import MeasureSql.Proofs.Pattern.Form
import MeasureSql.Proofs.Pattern.Visibility

/-!
# Stretches between holes

A pattern is rendered in two passes over its whole template, one for the functions and one for the
holes.  They do not get in each other's way.  A template is cut in exactly one way into holes and
stretches of plain text between them; renaming the functions of the template renames those of each
stretch by itself, and filling it puts every value in the place of its hole and leaves the stretches
as they are.

## Main definitions

* `Template.HoleFree` — no hole stands in a text.
* `Template.Part`, `Template.Cut` — a template cut at its holes.
* `Template.stretches` — the parts, from the pieces of a template.

## Main results

* `Template.piecesOf_append_open` — a brace begins a new piece.
* `Template.exists_cut`, `Template.Cut.unique` — there is exactly one cut.
* `Template.Cut.renamed`, `Template.Cut.fill` — what the two passes make of the parts.
* `Pattern.render_eq_substituted` — the SQL of a pattern.
-/

namespace MeasureSql

namespace Template

/-! ## Cuts -/

/-- No hole stands in the text. -/
def HoleFree (cs : List Char) : Prop :=
  ∀ name, isName name = true → ¬ '\x7b' :: (name ++ ['\x7d']) <:+: cs

/-- A hole, and the plain text behind it. -/
structure Part where
  hole : String
  behind : String
  deriving DecidableEq, Repr

/-- The text of a part. -/
def Part.text (p : Part) : String :=
  "\x7b" ++ p.hole ++ "\x7d" ++ p.behind

/-- A template is cut at its holes: what stands before the first one, and each hole with what stands
behind it up to the next one.  No hole is left in what stands between them. -/
structure Cut (template front : String) (parts : List Part) : Prop where
  text : template = front ++ String.join (parts.map Part.text)
  names : ∀ p ∈ parts, isName p.hole.toList = true
  front_free : HoleFree front.toList
  behind_free : ∀ p ∈ parts, HoleFree p.behind.toList

@[simp]
theorem Part.toList_text (p : Part) :
    p.text.toList = '\x7b' :: (p.hole.toList ++ '\x7d' :: p.behind.toList) := by
  simp [Part.text]

/-- The text of the parts behind a text. -/
theorem toList_parts (front : String) (parts : List Part) :
    (front ++ String.join (parts.map Part.text)).toList =
      front.toList ++ parts.flatMap fun p => p.text.toList := by
  simp [List.flatMap_map]

/-! ## Pieces of a cut -/

/-- An opening brace is no part of the hole that stands before it. -/
theorem hole?_append_open (xs ys : List Char) :
    hole? (xs ++ '\x7b' :: ys) = (hole? xs).map fun p => (p.1, p.2 ++ '\x7b' :: ys) := by
  have brace : isNamePart '\x7b' = false := by decide
  cases xs with
  | nil => simp [hole?, show isNameStart '\x7b' = false by decide]
  | cons c xs =>
    simp only [List.cons_append, hole?]
    split
    · rcases dropWhile_isNamePart xs with ended | ⟨next, rest, ended, -⟩
      · -- the name runs up to the brace, which does not close it
        simp [List.dropWhile_append, ended, brace]
      · have within : xs.takeWhile isNamePart ≠ xs := by
          intro all
          have whole := List.takeWhile_append_dropWhile (p := isNamePart) (l := xs)
          rw [ended, all] at whole
          simp at whole
        have short : (xs.takeWhile isNamePart).length ≠ xs.length := fun same =>
          within ((List.takeWhile_prefix isNamePart).eq_of_length same)
        rw [List.dropWhile_append, ended, List.takeWhile_append, if_neg short]
        simp only [List.isEmpty_cons, Bool.false_eq_true, if_false, List.cons_append]
        by_cases closing : next = '\x7d'
        · subst closing
          rfl
        · simp [closing]
    · rfl

/-- **A brace begins a new piece.** -/
theorem piecesOf_append_open (xs ys : List Char) :
    piecesOf (xs ++ '\x7b' :: ys) = piecesOf xs ++ piecesOf ('\x7b' :: ys) := by
  -- Strong induction on the text before the brace: a hole in it is read in one step.
  induction hn : xs.length using Nat.strongRecOn generalizing xs with
  | ind n ih =>
    subst hn
    cases xs with
    | nil => rfl
    | cons c xs =>
      have next := ih xs.length (by simp) xs rfl
      rw [List.cons_append, piecesOf_cons c (xs ++ _), piecesOf_cons c xs, hole?_append_open, next]
      split
      · cases found : hole? xs with
        | none => rfl
        | some entry =>
          obtain ⟨name, rest⟩ := entry
          have shorter : rest.length < (c :: xs).length := by
            have := length_of_hole? found
            simp only [List.length_cons]
            omega
          simp [ih rest.length shorter rest rfl]
      · rfl

/-- What is read between a brace and the next closing brace. -/
theorem hole?_name {name : List Char} (h : isName name = true) (rest : List Char) :
    hole? (name ++ '\x7d' :: rest) = some (name, rest) := by
  obtain _ | ⟨c, name⟩ := name
  · cases h
  · rw [isName, Bool.and_eq_true] at h
    exact hole?_append_eq_some (by simpa using h.1)
      (fun e he => List.all_eq_true.mp h.2 e (List.mem_cons_of_mem c he)) rest

/-- A hole at the front of a text. -/
theorem piecesOf_hole {name : List Char} (h : isName name = true) (rest : List Char) :
    piecesOf ('\x7b' :: (name ++ '\x7d' :: rest)) =
      .hole (String.ofList name) :: piecesOf rest := by
  rw [piecesOf_cons, if_pos rfl, hole?_name h]

/-- What is read as a hole is a name in braces. -/
theorem isName_of_hole? {cs name rest : List Char} (h : hole? cs = some (name, rest)) :
    isName name = true ∧ cs = name ++ '\x7d' :: rest := by
  obtain ⟨c, run, rfl, opens, parts, same⟩ := eq_of_hole? h
  refine ⟨?_, same⟩
  have all : run.all isNamePart = true := List.all_eq_true.mpr parts
  simp [isName, opens, isNamePart_of_isNameStart opens, all]

/-- A text without holes is plain. -/
theorem piecesOf_of_holeFree {cs : List Char} (h : HoleFree cs) :
    piecesOf cs = cs.map .char := by
  induction cs with
  | nil => rfl
  | cons c cs ih =>
    have plain : HoleFree cs := fun name named inside =>
      h name named (List.infix_cons_iff.mpr (.inr inside))
    rw [piecesOf_cons, ih plain, List.map_cons]
    split
    · next opens =>
      cases found : hole? cs with
      | none => rfl
      | some entry =>
        obtain ⟨named, same⟩ := isName_of_hole? found
        refine absurd ?_ (h entry.1 named)
        exact List.IsPrefix.isInfix ⟨entry.2, by simp [opens, same]⟩
    · rfl

/-- **A text without holes** is one that has no names of holes. -/
theorem holeFree_iff (cs : List Char) : HoleFree cs ↔ holeNames cs = [] := by
  constructor
  · intro h
    simp [holeNames, piecesOf_of_holeFree h, List.filterMap_map]
  · rintro h name named ⟨before, behind, same⟩
    have text : cs = before ++ '\x7b' :: (name ++ '\x7d' :: behind) := by simp [← same]
    rw [text, holeNames, piecesOf_append_open, piecesOf_hole named] at h
    simp at h

/-- **The pieces of a cut.** -/
theorem piecesOf_parts {parts : List Part} (names : ∀ p ∈ parts, isName p.hole.toList = true)
    (free : ∀ p ∈ parts, HoleFree p.behind.toList) {front : List Char} (plain : HoleFree front) :
    piecesOf (front ++ parts.flatMap fun p => p.text.toList) =
      front.map .char ++ parts.flatMap fun p => .hole p.hole :: p.behind.toList.map .char := by
  induction parts generalizing front with
  | nil => simpa using piecesOf_of_holeFree plain
  | cons p parts ih =>
    obtain ⟨named, names⟩ := List.forall_mem_cons.mp names
    obtain ⟨behind, free⟩ := List.forall_mem_cons.mp free
    have text : front ++ (p :: parts).flatMap (fun p => p.text.toList) =
        front ++ '\x7b' :: (p.hole.toList ++ '\x7d' ::
          (p.behind.toList ++ parts.flatMap fun p => p.text.toList)) := by
      simp
    rw [text, piecesOf_append_open, piecesOf_of_holeFree plain, piecesOf_hole named,
      ih names free behind]
    simp

theorem Cut.pieces {template front : String} {parts : List Part} (h : Cut template front parts) :
    pieces template = front.toList.map .char ++
      parts.flatMap fun p => .hole p.hole :: p.behind.toList.map .char := by
  rw [pieces_eq, h.text, toList_parts]
  exact piecesOf_parts h.names h.behind_free h.front_free

/-! ## There is exactly one cut -/

/-- The plain text in front of the first hole among some pieces, and the parts that follow. -/
def stretches : List Piece → List Char × List Part
  | [] => ([], [])
  | .char c :: ps => (c :: (stretches ps).1, (stretches ps).2)
  | .hole name :: ps => ([], ⟨name, String.ofList (stretches ps).1⟩ :: (stretches ps).2)

theorem stretches_map_char_append (cs : List Char) (ps : List Piece) :
    stretches (cs.map .char ++ ps) = (cs ++ (stretches ps).1, (stretches ps).2) := by
  induction cs with
  | nil => rfl
  | cons c cs ih => simp [stretches, ih]

theorem stretches_parts (parts : List Part) :
    stretches (parts.flatMap fun p => .hole p.hole :: p.behind.toList.map .char) = ([], parts) := by
  induction parts with
  | nil => rfl
  | cons p parts ih => simp [stretches, stretches_map_char_append, ih]

/-- **There is no other cut** than the one that is read off the pieces. -/
theorem Cut.eq_stretches {template front : String} {parts : List Part}
    (h : Cut template front parts) :
    front = String.ofList (stretches (Template.pieces template)).1 ∧
      parts = (stretches (Template.pieces template)).2 := by
  rw [h.pieces, stretches_map_char_append, stretches_parts]
  simp

theorem Cut.unique {template front front' : String} {parts parts' : List Part}
    (h : Cut template front parts) (h' : Cut template front' parts') :
    front' = front ∧ parts' = parts := by
  obtain ⟨rfl, rfl⟩ := h.eq_stretches
  exact h'.eq_stretches

/-- A character that opens no hole may stand before a text without holes. -/
theorem HoleFree.cons {cs rest : List Char} (h : HoleFree cs) {c : Char}
    (plain : c = '\x7b' → hole? (cs ++ rest) = none) : HoleFree (c :: cs) := by
  intro name named inside
  rcases List.infix_cons_iff.mp inside with ⟨behind, opened⟩ | inside
  · obtain ⟨rfl, closed⟩ := List.cons.inj opened
    have first : cs ++ rest = name ++ '\x7d' :: (behind ++ rest) := by
      rw [← closed]
      simp
    rw [first, hole?_name named] at plain
    exact absurd (plain rfl) (by simp)
  · exact h name named inside

theorem Cut.nil : Cut (String.ofList []) (String.ofList []) [] where
  text := by simp
  names := by simp
  front_free := fun name _ inside => by simp at inside
  behind_free := by simp

/-- A character that opens no hole, in front of a template. -/
theorem Cut.char {cs : List Char} {front : String} {parts : List Part}
    (h : Cut (String.ofList cs) front parts) {c : Char} (plain : c = '\x7b' → hole? cs = none) :
    Cut (String.ofList (c :: cs)) (String.ofList (c :: front.toList)) parts := by
  have text : cs = front.toList ++ parts.flatMap fun p => p.text.toList := by
    rw [← toList_parts, ← h.text, String.toList_ofList]
  refine ⟨?_, h.names, ?_, h.behind_free⟩
  · rw [← String.toList_inj, toList_parts, String.toList_ofList, String.toList_ofList,
      List.cons_append, ← text]
  · rw [text] at plain
    rw [String.toList_ofList]
    exact h.front_free.cons plain

/-- A hole in front of a template. -/
theorem Cut.hole {cs name : List Char} {front : String} {parts : List Part}
    (h : Cut (String.ofList cs) front parts) (named : isName name = true) :
    Cut (String.ofList ('\x7b' :: (name ++ '\x7d' :: cs))) (String.ofList [])
      (⟨String.ofList name, front⟩ :: parts) where
  text := by
    have text : cs = front.toList ++ parts.flatMap fun p => p.text.toList := by
      rw [← toList_parts, ← h.text, String.toList_ofList]
    rw [← String.toList_inj, toList_parts, List.flatMap_cons, Part.toList_text, text]
    simp
  names := List.forall_mem_cons.mpr ⟨by rwa [String.toList_ofList], h.names⟩
  front_free := fun name _ inside => by simp at inside
  behind_free := List.forall_mem_cons.mpr ⟨h.front_free, h.behind_free⟩

/-- **Every template has a cut.** -/
theorem exists_cut (cs : List Char) : ∃ front parts, Cut (String.ofList cs) front parts := by
  induction hn : cs.length using Nat.strongRecOn generalizing cs with
  | ind n ih =>
    subst hn
    cases cs with
    | nil => exact ⟨_, _, .nil⟩
    | cons c cs =>
      obtain ⟨front, parts, behind⟩ := ih cs.length (by simp) cs rfl
      cases found : hole? cs with
      | none => exact ⟨_, _, behind.char fun _ => found⟩
      | some entry =>
        by_cases opens : c = '\x7b'
        · obtain ⟨name, rest⟩ := entry
          obtain ⟨named, rfl⟩ := isName_of_hole? found
          have shorter := length_of_hole? found
          obtain ⟨front, parts, behind⟩ := ih rest.length (by simp at shorter ⊢; omega) rest rfl
          rw [opens]
          exact ⟨_, _, behind.hole named⟩
        · exact ⟨_, _, behind.char fun opened => absurd opened opens⟩

/-! ## The two passes -/

/-- A part in the words of a dialect. -/
def Part.renamed (d : Dialect) (p : Part) : Part :=
  { p with behind := renameFunctions d p.behind }

theorem toList_renameFunctions (d : Dialect) (s : String) :
    (renameFunctions d s).toList = renameFrom d false [] s.toList := by
  rw [renameFunctions, String.toList_ofList]

/-- **Every stretch is renamed by itself**, and the holes stay. -/
theorem renameFrom_parts (d : Dialect) {parts : List Part}
    (names : ∀ p ∈ parts, isName p.hole.toList = true) (front : List Char) :
    renameFrom d false [] (front ++ parts.flatMap fun p => p.text.toList) =
      renameFrom d false [] front ++
        (parts.map (Part.renamed d)).flatMap fun p => p.text.toList := by
  induction parts generalizing front with
  | nil => simp
  | cons p parts ih =>
    obtain ⟨named, names⟩ := List.forall_mem_cons.mp names
    have opening : endsWord '\x7b' = true := by decide
    have closing : endsWord '\x7d' = true := by decide
    have name : renameFrom d false [] p.hole.toList = p.hole.toList :=
      renameFrom_of_not_mem d false [] (not_mem_of_isName named (by decide))
    have text : front ++ (p :: parts).flatMap (fun p => p.text.toList) =
        front ++ '\x7b' :: (p.hole.toList ++ '\x7d' ::
          (p.behind.toList ++ parts.flatMap fun p => p.text.toList)) := by
      simp
    rw [text, renameFrom_append d _ _ _ opening, renameFrom_append d _ _ _ closing, name,
      ih names p.behind.toList]
    simp [Part.renamed, toList_renameFunctions]

/-- No hole comes into a text when its functions are renamed. -/
theorem HoleFree.renamed (d : Dialect) {s : String} (h : HoleFree s.toList) :
    HoleFree (renameFunctions d s).toList := by
  rw [holeFree_iff, toList_renameFunctions, holeNames_renameFrom d _ _ _ (by simp)]
  exact (holeFree_iff _).mp h

/-- **Renaming functions** renames those of each stretch. -/
theorem Cut.renamed {template front : String} {parts : List Part} (d : Dialect)
    (h : Cut template front parts) :
    Cut (renameFunctions d template) (renameFunctions d front)
      (parts.map (Part.renamed d)) where
  text := by
    rw [← String.toList_inj, toList_parts, toList_renameFunctions, toList_renameFunctions, h.text,
      toList_parts]
    exact renameFrom_parts d h.names front.toList
  names := by
    rw [List.forall_mem_map]
    exact h.names
  front_free := h.front_free.renamed d
  behind_free := by
    rw [List.forall_mem_map]
    exact fun p hp => (h.behind_free p hp).renamed d

/-- What is found first is found first among the different ones. -/
theorem find?_eraseDups (test : String → Bool) (names : List String) :
    names.eraseDups.find? test = names.find? test := by
  induction hn : names.length using Nat.strongRecOn generalizing names with
  | ind n ih =>
    subst hn
    cases names with
    | nil => rfl
    | cons name names =>
      rw [List.eraseDups_cons, List.find?_cons, List.find?_cons]
      split
      · rfl
      · next fails =>
        have shorter : (names.filter fun other => !other == name).length < (name :: names).length :=
          Nat.lt_succ_of_le (List.length_filter_le _ _)
        rw [ih _ shorter _ rfl, List.find?_filter]
        congr 1
        funext other
        by_cases same : other = name
        · simp [same, fails]
        · simp [same]

/-- **Filling** puts every value in the place of its hole, or names the first hole without one. -/
theorem Cut.fill {template front : String} {parts : List Part} (h : Cut template front parts)
    (pattern : String) (value : String → Option String) :
    fill pattern template value =
      match (parts.map Part.hole).find? fun hole => (value hole).isNone with
      | some hole => .error (.unbound pattern hole)
      | none => .ok (front ++ String.join
          (parts.map fun p => (value p.hole).getD "" ++ p.behind)) := by
  have plain (cs : List Char) : (cs.map Piece.char).flatMap (fillPiece value) = cs := by
    simp [List.flatMap_map, fillPiece]
  have names : holes template = (parts.map Part.hole).eraseDups := by
    have none_of (cs : List Char) : cs.filterMap (fun _ => (none : Option String)) = [] :=
      List.filterMap_eq_nil_iff.mpr fun _ _ => rfl
    rw [holes, h.pieces, holesOf]
    simp [List.filterMap_map, List.filterMap_flatMap, none_of, ← List.map_eq_flatMap]
  have text : String.ofList ((Template.pieces template).flatMap (fillPiece value)) =
      front ++ String.join (parts.map fun p => (value p.hole).getD "" ++ p.behind) := by
    rw [← String.toList_inj, h.pieces, List.flatMap_append, plain, List.flatMap_assoc]
    simp [List.flatMap_cons, plain, fillPiece, List.flatMap_map]
  rw [Template.fill, names, find?_eraseDups]
  cases (parts.map Part.hole).find? fun hole => (value hole).isNone with
  | some hole => rfl
  | none => exact congrArg Except.ok text

end Template

namespace Pattern

/-- **The SQL of a pattern.**  Its template is cut in exactly one way into holes and stretches of
plain text.  If a hole has neither a binding nor a default, the first one is reported.  Otherwise
every stretch is put into the words of the dialect, a hole that is bound gives way to its value as
it is, and any other hole to its default in the words of the dialect. -/
theorem render_eq_substituted (p : Pattern) (d : Dialect) (b : Bindings) :
    ∃ front parts, Template.Cut p.template front parts ∧
      (∀ front' parts', Template.Cut p.template front' parts' →
        front' = front ∧ parts' = parts) ∧
      p.render d b =
        match (parts.map Template.Part.hole).find? fun hole =>
          (b.lookup hole).isNone && (p.defaults.lookup hole).isNone with
        | some hole => .error (.unbound p.name hole)
        | none => .ok (Template.renameFunctions d front ++ String.join (parts.map fun part =>
            (b.lookup part.hole).getD
              (Template.renameFunctions d ((p.defaults.lookup part.hole).getD "")) ++
            Template.renameFunctions d part.behind)) := by
  obtain ⟨front, parts, cut⟩ := Template.exists_cut p.template.toList
  rw [String.ofList_toList] at cut
  refine ⟨front, parts, cut, fun front' parts' => cut.unique, ?_⟩
  have unbound (hole : String) : (p.valueOf d b hole).isNone =
      ((b.lookup hole).isNone && (p.defaults.lookup hole).isNone) := by
    rw [valueOf, Option.isNone_or, Option.isNone_map]
  have value (hole : String) : (p.valueOf d b hole).getD "" =
      (b.lookup hole).getD (Template.renameFunctions d ((p.defaults.lookup hole).getD "")) := by
    rw [valueOf]
    cases b.lookup hole with
    | some value => rfl
    | none => cases p.defaults.lookup hole <;> rfl
  rw [render, (cut.renamed d).fill, List.map_map, List.map_map]
  simp only [unbound, Function.comp_def, Template.Part.renamed, value]

/-- A value that looks like a hole or a call is left as it is. -/
example : (Pattern.mk "X" .text "LENGTH({a}) + LENGTH({b})" "" none none []
      [("b", "SUBSTR(s)")] none false false .simple).render .tsql [("a", "{b} LENGTH(t)")] =
    .ok "LEN({b} LENGTH(t)) + LEN(SUBSTRING(s))" := by
  decide +kernel

end Pattern

end MeasureSql
