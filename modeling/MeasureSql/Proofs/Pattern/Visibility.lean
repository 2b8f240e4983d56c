import MeasureSql.Proofs.Pattern.Catalog

/-!
# Which arguments are seen

A template need not have a hole for every parameter of its pattern, and an argument that is put to
such a parameter leaves no trace in the SQL.  An argument whose parameter has a hole is seen: its
text occurs in the SQL of the call.

## Main definitions

* `Text.Within` — one text occurs in another.
* `Pattern.param?`, `Pattern.shows` — the parameter that an argument goes to, and whether the
  template has a hole for it.

## Main results

* `Template.within_fill` — the value of a hole occurs in the filled template.
* `Pattern.within_bind` — an argument occurs in the value of its parameter.
* `Pattern.within_render` — an argument that is shown occurs in the SQL.
-/

namespace MeasureSql

namespace Text

/-- The first text occurs in the second. -/
def Within (part whole : String) : Prop :=
  part.toList <:+: whole.toList

variable {part text whole : String}

theorem Within.refl (s : String) : Within s s :=
  List.infix_refl _

theorem Within.trans (h : Within part text) (h' : Within text whole) : Within part whole :=
  List.IsInfix.trans h h'

/-- Only the empty text occurs in the empty text, and that one occurs everywhere. -/
theorem Within.of_empty (h : Within part "") (whole : String) : Within part whole := by
  have hpart : part.toList = [] := by simpa [Within] using h
  rw [Within, hpart]
  exact List.nil_infix

theorem within_append (front part back : String) : Within part (front ++ part ++ back) := by
  rw [Within, String.toList_append, String.toList_append]
  exact List.infix_append _ _ _

theorem within_append_left (part back : String) : Within part (part ++ back) := by
  simpa using within_append "" part back

theorem within_append_right (front part : String) : Within part (front ++ part) := by
  simpa using within_append front part ""

/-- A text that is joined with others occurs in what they are joined to. -/
theorem within_intercalate (sep : String) {xs : List String} (h : part ∈ xs) :
    Within part (sep.intercalate xs) := by
  rw [Within, String.toList_intercalate]
  induction xs with
  | nil => cases h
  | cons x xs ih =>
    by_cases hxs : xs = []
    · subst hxs
      rw [List.mem_singleton.mp h]
      simp
    · rw [List.map_cons, List.intercalate_cons_of_ne_nil (by simpa using hxs)]
      rcases List.mem_cons.mp h with rfl | h
      · rw [List.append_assoc]
        exact (List.prefix_append _ _).isInfix
      · exact (ih h).trans (List.suffix_append _ _).isInfix

end Text

open Text

/-! ## Templates -/

namespace Template

/-- A name among the holes of a template is one of its pieces. -/
theorem mem_pieces_of_mem_holes {template hole : String} (h : hole ∈ holes template) :
    Piece.hole hole ∈ pieces template := by
  rw [holes, holesOf, List.mem_eraseDups] at h
  obtain ⟨piece, hpiece, heq⟩ := List.mem_filterMap.mp h
  cases piece with
  | char c => cases heq
  | hole name =>
    cases heq
    exact hpiece

/-- **The value of a hole occurs in the filled template.** -/
theorem within_fill {pattern template sql : String} {value : String → Option String}
    (hfill : fill pattern template value = .ok sql) {hole v : String}
    (hhole : hole ∈ holes template) (hvalue : value hole = some v) : Within v sql := by
  rw [fill] at hfill
  split at hfill
  · cases hfill
  · cases hfill
    obtain ⟨front, back, hpieces⟩ := List.append_of_mem (mem_pieces_of_mem_holes hhole)
    rw [Within, String.toList_ofList, hpieces, List.flatMap_append, List.flatMap_cons, fillPiece,
      hvalue]
    exact List.infix_append' _ _ _

end Template

/-! ## Patterns -/

namespace Pattern

/-- The parameter that an argument goes to, by its place in the call: the last one takes all that
are left when the pattern has a separator. -/
def param? (p : Pattern) (i : Nat) : Option String :=
  p.params[i]?.or (if p.separator.isSome then p.params.getLast? else none)

/-- Does the template have a hole for the argument in some place? -/
def shows (p : Pattern) (i : Nat) : Bool :=
  (p.param? i).any (Template.holes p.template).contains

/-- A value that a parameter was given is there. -/
theorem lookup_give_some (b : BoundArgs) (defaults : Bindings) (param value : String) :
    (b.give defaults param (some value)).bindings.lookup param = some value := by
  simp [BoundArgs.give]

/-- The argument in some place occurs in the value of its parameter. -/
theorem within_bindFrom (p : Pattern) (params args : List String) (b : BoundArgs)
    (hnodup : params.Nodup) {i : Nat} {arg name : String} (harg : args[i]? = some arg)
    (hname : params[i]?.or (if p.separator.isSome then params.getLast? else none) = some name) :
    ∃ value, (p.bindFrom params args b).bindings.lookup name = some value ∧ Within arg value := by
  fun_induction bindFrom p params args b generalizing i with
  | case1 args b => simp at hname
  | case2 param args b sep hsep =>
    have heq : name = param := by
      cases i with
      | zero => simpa using hname.symm
      | succ i => simpa [hsep] using hname.symm
    have hne : args ≠ [] := by
      rintro rfl
      cases harg
    rw [heq, if_neg (by simpa using hne)]
    exact ⟨_, lookup_give_some b _ _ _, within_intercalate sep (List.mem_of_getElem? harg)⟩
  | case3 param args b hsep =>
    cases i with
    | zero =>
      have heq : name = param := by simpa using hname.symm
      have hhead : args.head? = some arg := List.head?_eq_getElem?.trans harg
      rw [heq]
      change ∃ value, (b.give p.defaults param args.head?).bindings.lookup param = some value ∧ _
      rw [hhead]
      exact ⟨arg, lookup_give_some b _ _ _, Within.refl arg⟩
    | succ i => simp [hsep] at hname
  | case4 param params args b hne ih =>
    rw [List.nodup_cons] at hnodup
    cases i with
    | zero =>
      have heq : name = param := by simpa using hname.symm
      rw [heq, p.lookup_bindFrom_of_not_mem _ _ _ hnodup.1, List.head?_eq_getElem?, harg]
      exact ⟨arg, lookup_give_some b _ _ _, Within.refl arg⟩
    | succ i =>
      have harg' : args.tail[i]? = some arg := by simpa using harg
      refine ih hnodup.2 harg' ?_
      obtain ⟨q, qs, rfl⟩ := List.exists_cons_of_ne_nil hne
      simpa using hname

/-- **An argument occurs in the value of its parameter.** -/
theorem within_bind (p : Pattern) {args : List String} (hnodup : p.params.Nodup) {i : Nat}
    {arg name : String} (harg : args[i]? = some arg) (hname : p.param? i = some name) :
    ∃ value, (p.bind args).bindings.lookup name = some value ∧ Within arg value :=
  p.within_bindFrom _ _ _ hnodup harg hname

/-- The value that is bound to a hole occurs in the SQL. -/
theorem within_render (p : Pattern) (d : Dialect) {b : Bindings} {sql : String}
    (hrender : p.render d b = .ok sql) {hole value : String}
    (hhole : hole ∈ Template.holes p.template) (hvalue : b.lookup hole = some value) :
    Within value sql := by
  have hbound : p.valueOf d b hole = some value := by simp [valueOf, hvalue]
  rw [← Template.holes_renameFunctions d p.template] at hhole
  exact Template.within_fill hrender hhole hbound

end Pattern

/-! ## The catalog -/

namespace Catalog

/-- The holes of a projection for what comes after its table. -/
def columnHoles (function : String) : List String :=
  if function == "SUMMARIZE" then ["group_by", "aggregations"] else ["columns"]

/-- What the template of a pattern shows: the functions with a rule of their own have holes for what
their rule gives them. -/
structure ShowsParts (p : Pattern) : Prop where
  /-- Different parameters have different names. -/
  nodup : p.params.Nodup
  filter : p.name = "FILTER" → p.params = ["table", "condition"] ∧ p.shows 1 = true
  iterator : p.name ∈ ["SUMX", "AVERAGEX", "COUNTX", "MINX", "MAXX"] → p.shows 1 = true
  switch : p.name = "SWITCH" →
    "expression" ∈ Template.holes p.template ∧ "cases" ∈ Template.holes p.template
  projection : p.name ∈ ["SUMMARIZE", "ADDCOLUMNS", "SELECTCOLUMNS"] →
    ∀ hole ∈ "table" :: columnHoles p.name, hole ∈ Template.holes p.template
  cond : p.name = "IF" → p.shows 0 = true ∧ p.shows 1 = true ∧ p.shows 2 = true
  period : p.name ∈ ["DATESYTD", "DATESQTD", "DATESMTD"] → p.shows 0 = true
  /-- The table of a filtered table is not shown; it is known by the tables it is read from. -/
  subquery : p.name ∈ subqueries → "where" ∈ Template.holes p.template ∧
    (p.name ≠ "CALCULATETABLE" → "expression" ∈ Template.holes p.template)

/-- **What the patterns of the catalog show**, read off by one evaluation. -/
theorem showsParts_of_mem {p : Pattern} (hp : p ∈ builtin) : ShowsParts p := by
  -- the holes are read off the bytes, which is quick
  have hall : ∀ p ∈ builtin,
      let holes := Template.holesOf (Template.piecesOf (Text.asciiChars p.template))
      let shows (i : Nat) := (p.param? i).any holes.contains
      p.params.Nodup ∧
      (p.name = "FILTER" → p.params = ["table", "condition"] ∧ shows 1 = true) ∧
      (p.name ∈ ["SUMX", "AVERAGEX", "COUNTX", "MINX", "MAXX"] → shows 1 = true) ∧
      (p.name = "SWITCH" → "expression" ∈ holes ∧ "cases" ∈ holes) ∧
      (p.name ∈ ["SUMMARIZE", "ADDCOLUMNS", "SELECTCOLUMNS"] →
        ∀ hole ∈ "table" :: columnHoles p.name, hole ∈ holes) ∧
      (p.name = "IF" → shows 0 = true ∧ shows 1 = true ∧ shows 2 = true) ∧
      (p.name ∈ ["DATESYTD", "DATESQTD", "DATESMTD"] → shows 0 = true) ∧
      (p.name ∈ subqueries → "where" ∈ holes ∧
        (p.name ≠ "CALCULATETABLE" → "expression" ∈ holes)) := by
    decide +kernel
  have hparts := hall p hp
  rw [← holes_of_mem hp] at hparts
  obtain ⟨hnodup, hfilter, hiterator, hswitch, hprojection, hcond, hperiod, hsubquery⟩ := hparts
  exact ⟨hnodup, hfilter, hiterator, hswitch, hprojection, hcond, hperiod, hsubquery⟩

end Catalog

end MeasureSql
