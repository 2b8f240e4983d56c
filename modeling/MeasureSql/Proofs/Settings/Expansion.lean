import MeasureSql.Proofs.Dax.Pieces
import MeasureSql.Settings.Basic

/-!
# Expansion of references to variables

A text with references to variables is put together from stretches: text without a dollar sign,
names in braces behind a dollar sign, and names without braces, which end where no more character of
a name follows.  A dollar sign that begins no reference stands for itself, and a brace that is left
open takes all the rest as its name.  Every text is put together in this way.  However it is, its
references give way to the values of their variables, which are not looked at again, and everything
else stays.  The first variable that is not set is reported.

## Main definitions

* `Stretch` — text, or a reference.
* `Cut` — the stretches that a text is put together from.

## Main results

* `exists_cut` — every text is put together from stretches.
* `Cut.pieces` — expansion finds them.
* `expand_eq_substituted` — the text with the values in place of the references.
-/

namespace MeasureSql.Settings

/-- Text that stands for itself, or a reference to a variable. -/
inductive Stretch where
  | text (s : String)
  | reference (name : String)
  deriving DecidableEq, Repr

namespace Stretch

/-- The variable of a reference. -/
def name? : Stretch → Option String
  | .text _ => none
  | .reference name => some name

/-- What a stretch stands for when its variable is set. -/
def value (lookup : String → Option String) : Stretch → String
  | .text s => s
  | .reference name => (lookup name).getD ""

/-- The pieces of a stretch. -/
def pieces : Stretch → List Piece
  | .text s => s.toList.map .plain
  | .reference name => [.reference name]

end Stretch

/-- **A text is cut into stretches.** -/
inductive Cut : List Char → List Stretch → Prop
  | done : Cut [] []
  | text {s : String} {rest : List Char} {ss : List Stretch} (free : '$' ∉ s.toList)
      (more : Cut rest ss) : Cut (s.toList ++ rest) (.text s :: ss)
  /-- A name in braces goes to the first closing brace. -/
  | braced {name : String} {rest : List Char} {ss : List Stretch} (closes : '\x7d' ∉ name.toList)
      (more : Cut rest ss) :
      Cut ('$' :: '\x7b' :: (name.toList ++ '\x7d' :: rest)) (.reference name :: ss)
  /-- A name without braces goes to the first character that names do not have. -/
  | bare {name : String} {rest : List Char} {ss : List Stretch} (nonempty : name ≠ "")
      (all : ∀ c ∈ name.toList, isNameChar c = true) (ends : ∀ c ∈ rest.head?, isNameChar c = false)
      (more : Cut rest ss) : Cut ('$' :: (name.toList ++ rest)) (.reference name :: ss)
  /-- A dollar sign that begins no reference. -/
  | lone {rest : List Char} {ss : List Stretch}
      (ends : ∀ c ∈ rest.head?, c ≠ '\x7b' ∧ isNameChar c = false) (more : Cut rest ss) :
      Cut ('$' :: rest) (.text "$" :: ss)
  /-- A name in a brace that is left open. -/
  | unclosed {name : String} (stays : '\x7d' ∉ name.toList) :
      Cut ('$' :: '\x7b' :: name.toList) [.reference name]

/-! ## Cutting -/

theorem pieces_plain {c : Char} {cs : List Char} (plain : c ≠ '$') :
    pieces (c :: cs) = .plain c :: pieces cs := by
  rw [pieces]
  · rintro rest rfl
    exact absurd rfl plain
  · rintro rfl
    exact absurd rfl plain

theorem pieces_bare {cs : List Char} (open_ : cs.head? ≠ some '\x7b') :
    pieces ('$' :: cs) =
      if (cs.takeWhile isNameChar).isEmpty then .plain '$' :: pieces cs
      else .reference (String.ofList (cs.takeWhile isNameChar))
        :: pieces (cs.dropWhile isNameChar) := by
  rw [pieces]
  rintro rest rfl
  exact absurd rfl open_

/-- A name in braces goes to the first closing brace, or to the end. -/
theorem pieces_braced {name : String} {rest : List Char} (stays : '\x7d' ∉ name.toList)
    (ends : ∀ c ∈ rest.head?, c = '\x7d') :
    pieces ('$' :: '\x7b' :: (name.toList ++ rest)) = .reference name :: pieces (rest.drop 1) := by
  have inside : ∀ c ∈ name.toList, (c != '\x7d') = true := fun c hc => by
    simpa using ne_of_mem_of_not_mem hc stays
  obtain ⟨front, back⟩ := Dax.Scan.mk.inj
    (Dax.takeWhile_run inside fun c hc => by simpa using ends c hc)
  rw [pieces, front, back, String.ofList_toList]

/-- **Expansion finds the stretches** of a text. -/
theorem Cut.pieces {cs : List Char} {ss : List Stretch} (h : Cut cs ss) :
    pieces cs = ss.flatMap Stretch.pieces := by
  induction h with
  | done => rw [Settings.pieces]; rfl
  | @text s rest ss free more ih =>
    rw [List.flatMap_cons, ← ih, Stretch.pieces]
    generalize s.toList = cs at free
    induction cs with
    | nil => rfl
    | cons c cs ih =>
      rw [List.mem_cons, not_or] at free
      rw [List.cons_append, pieces_plain (Ne.symm free.1), ih free.2]
      rfl
  | @braced name rest ss closes more ih =>
    rw [pieces_braced closes (by simp), List.drop_one, List.tail_cons, ih]
    rfl
  | @bare name rest ss nonempty all ends more ih =>
    obtain ⟨front, back⟩ := Dax.Scan.mk.inj (Dax.takeWhile_run all ends)
    have first : (name.toList ++ rest).head? ≠ some '\x7b' := by
      cases hname : name.toList with
      | nil => exact absurd (String.toList_eq_nil_iff.mp hname) nonempty
      | cons c cs =>
        have brace : isNameChar '\x7b' = false := by decide
        rintro ⟨⟩
        exact absurd (all '\x7b' (by simp [hname])) (by simp [brace])
    rw [pieces_bare first, front, back, String.ofList_toList, if_neg (by simpa using nonempty), ih]
    rfl
  | @lone rest ss ends more ih =>
    have first : rest.head? ≠ some '\x7b' := fun same => (ends _ same).1 rfl
    have none : rest.takeWhile isNameChar = [] :=
      congrArg Dax.Scan.taken
        (Dax.takeWhile_run (List.forall_mem_nil _) fun c hc => (ends c hc).2)
    rw [pieces_bare first, none, ih]
    rfl
  | @unclosed name stays =>
    have ends : ∀ c ∈ ([] : List Char).head?, c = '\x7d' := by simp
    have whole := pieces_braced stays ends
    rw [List.append_nil, List.drop_nil, Settings.pieces] at whole
    rw [whole]
    rfl

/-- **Every text is cut into stretches.** -/
theorem exists_cut (cs : List Char) : ∃ ss, Cut cs ss := by
  fun_induction Settings.pieces cs with
  | case1 => exact ⟨[], .done⟩
  | case2 cs ih =>
    have stays : '\x7d' ∉ (String.ofList (cs.takeWhile (· != '\x7d'))).toList := by
      rw [String.toList_ofList]
      exact fun mem => by simpa using List.all_eq_true.mp List.all_takeWhile _ mem
    have whole : cs.takeWhile (· != '\x7d') ++ cs.dropWhile (· != '\x7d') = cs :=
      List.takeWhile_append_dropWhile
    cases left : cs.dropWhile (· != '\x7d') with
    | nil =>
      rw [left, List.append_nil] at whole
      have cut := Cut.unclosed stays
      rw [String.toList_ofList, whole] at cut
      exact ⟨_, cut⟩
    | cons c rest =>
      have stop := List.head?_dropWhile_not (· != '\x7d') cs
      rw [left] at stop ih whole
      obtain rfl : c = '\x7d' := by simpa using stop
      obtain ⟨ss, more⟩ := ih
      have cut := Cut.braced stays more
      rw [String.toList_ofList, List.drop_one, List.tail_cons, whole] at cut
      exact ⟨_, cut⟩
  | case3 cs other none ih =>
    obtain ⟨ss, more⟩ := ih
    refine ⟨_, .lone (fun c hc => ?_) more⟩
    obtain ⟨rest, rfl⟩ := List.head?_eq_some_iff.mp hc
    refine ⟨fun brace => other rest (by rw [brace]), ?_⟩
    simpa [List.takeWhile_cons] using none
  | case4 cs other some_ ih =>
    obtain ⟨ss, more⟩ := ih
    have nonempty : String.ofList (cs.takeWhile isNameChar) ≠ "" := by simpa using some_
    have all : ∀ c ∈ (String.ofList (cs.takeWhile isNameChar)).toList, isNameChar c = true := by
      rw [String.toList_ofList]
      exact List.all_eq_true.mp List.all_takeWhile
    have ends : ∀ c ∈ (cs.dropWhile isNameChar).head?, isNameChar c = false := by
      intro c hc
      have stop := List.head?_dropWhile_not isNameChar cs
      rw [Option.mem_def.mp hc] at stop
      simpa using stop
    have cut := Cut.bare nonempty all ends more
    rw [String.toList_ofList, List.takeWhile_append_dropWhile] at cut
    exact ⟨_, cut⟩
  | case5 c cs plain other ih =>
    obtain ⟨ss, more⟩ := ih
    have free : '$' ∉ (String.singleton c).toList := by
      simpa [eq_comm] using other
    have cut := Cut.text free more
    rw [String.toList_singleton] at cut
    exact ⟨_, cut⟩

/-! ## Values -/

/-- The variable of a piece that refers to one. -/
def Piece.name? : Piece → Option String
  | .plain _ => none
  | .reference name => some name

/-- What a piece stands for when its variable is set. -/
def Piece.text (lookup : String → Option String) : Piece → String
  | .plain c => String.singleton c
  | .reference name => (lookup name).getD ""

/-- The values of pieces, or the first variable that is not set. -/
theorem mapM_value (lookup : String → Option String) (ps : List Piece) :
    ps.mapM (Piece.value lookup) =
      match (ps.filterMap Piece.name?).find? fun name => (lookup name).isNone with
      | some name => .error name
      | none => .ok (ps.map (Piece.text lookup)) := by
  induction ps with
  | nil => rfl
  | cons p ps ih =>
    rw [List.mapM_cons, ih]
    cases p with
    | plain c =>
      rw [List.filterMap_cons_none rfl]
      split <;> rfl
    | reference name =>
      have named : (Piece.reference name).name? = some name := rfl
      rw [List.filterMap_cons_some named, List.map_cons, Piece.value, Piece.text]
      cases found : lookup name with
      | none =>
        rw [List.find?_cons_of_pos (by simp [found])]
        rfl
      | some value =>
        rw [List.find?_cons_of_neg (by simp [found])]
        cases (ps.filterMap Piece.name?).find? fun name => (lookup name).isNone <;> rfl

variable (ss : List Stretch)

theorem filterMap_pieces :
    (ss.flatMap Stretch.pieces).filterMap Piece.name? = ss.filterMap Stretch.name? := by
  induction ss with
  | nil => rfl
  | cons s ss ih =>
    rw [List.flatMap_cons, List.filterMap_append, ih]
    cases s with
    | text s =>
      have none : (s.toList.map Piece.plain).filterMap Piece.name? = [] := by
        rw [List.filterMap_eq_nil_iff, List.forall_mem_map]
        exact fun c _ => rfl
      rw [Stretch.pieces, none, List.filterMap_cons_none rfl]
      rfl
    | reference name => rfl

theorem join_pieces (lookup : String → Option String) :
    String.join ((ss.flatMap Stretch.pieces).map (Piece.text lookup)) =
      String.join (ss.map (Stretch.value lookup)) := by
  induction ss with
  | nil => rfl
  | cons s ss ih =>
    rw [List.flatMap_cons, List.map_append, String.join_append, ih, List.map_cons, String.join_cons]
    congr 1
    cases s with
    | text s =>
      rw [Stretch.pieces, Stretch.value, List.map_map, ← String.toList_inj, String.toList_join]
      simp [List.flatMap_map, Piece.text]
    | reference name => simp [Stretch.pieces, Stretch.value, Piece.text]

/-- **References give way to values, once.**  Every text is cut into text that stands for itself and
references to variables.  However it is cut, if a variable is not set, the first such reference is
reported.  Otherwise every reference is replaced by the value of its variable as it is, and the rest
of the text stays. -/
theorem expand_eq_substituted (lookup : String → Option String) (text : String) :
    (∃ ss, Cut text.toList ss) ∧
      ∀ ss, Cut text.toList ss →
        (expand lookup text).mapError SettingsError.missingVariable =
          match (ss.filterMap Stretch.name?).find? fun name => (lookup name).isNone with
          | some name => .error (.missingVariable name)
          | none => .ok (String.join (ss.map (Stretch.value lookup))) := by
  refine ⟨exists_cut _, fun ss h => ?_⟩
  rw [expand, mapM_value, h.pieces, filterMap_pieces]
  cases (ss.filterMap Stretch.name?).find? fun name => (lookup name).isNone with
  | some name => rfl
  | none => exact congrArg Except.ok (join_pieces ss lookup)

/-- A value that looks like a reference is left as it is. -/
example :
    (expand (fun name => [("A", "$B"), ("B", "1")].lookup name)
      "$A$\x7bB\x7d.$A! $ 5").toOption = some "$B1.$B! $ 5" := by
  decide +kernel

end MeasureSql.Settings
