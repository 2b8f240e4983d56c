import MeasureSql.Pattern.Library
import MeasureSql.Proofs.Pattern.Binding
import MeasureSql.Proofs.Text.Capitals

/-!
# What the catalog promises

Every hole of a template in the catalog is a parameter of its pattern, has a default, or stands for
the table, but for six patterns whose holes are filled by a rule of their own: five subqueries and
the grouping of a table.  All of this is read off the catalog by one evaluation.

## Main results

* `Catalog.isSettled_of_mem` — the promise, for every pattern of the catalog.
* `PatternLibrary.builtin_eq` — the library with the catalog is the catalog.
* `PatternLibrary.mem_builtin_of_get?` — what is found in the library stands in the catalog, under
  the capital form of the name it was looked up by.
* `PatternLibrary.exists_get?_builtin` — every pattern of the catalog is found.
-/

namespace MeasureSql

/-! ## ASCII text by its bytes

Decoding a text character by character is slow to evaluate; for ASCII text the bytes are the
characters. -/

namespace Text

/-- The bytes of a text. -/
def bytes (s : String) : List UInt8 :=
  s.toByteArray.data.toList

/-- The characters of an ASCII text. -/
def asciiChars (s : String) : List Char :=
  (bytes s).map fun b => Char.ofNat b.toNat

theorem bytes_eq (s : String) : bytes s = s.toList.flatMap String.utf8EncodeChar := by
  rw [bytes, ← String.utf8Encode_toList]
  exact List.toList_data_toByteArray

/-- A character whose encoding has no byte above `0x7F` is its own encoding. -/
theorem utf8EncodeChar_eq_of_lt {c : Char} (h : ∀ b ∈ String.utf8EncodeChar c, b < 0x80) :
    String.utf8EncodeChar c = [UInt8.ofNat c.toNat] ∧ c.toNat ≤ 0x7F := by
  by_cases hc : c.val.toNat ≤ 0x7F
  · exact ⟨by simp only [String.utf8EncodeChar, if_pos hc]; rfl, hc⟩
  · -- The leading byte of a longer encoding is at least `0xC0`.
    exfalso
    have hhead : ∃ k tail,
        String.utf8EncodeChar c = UInt8.ofNat k :: tail ∧ 0xC0 ≤ k ∧ k < 0x100 := by
      simp only [String.utf8EncodeChar, if_neg hc]
      split
      · exact ⟨_, _, rfl, by omega, by omega⟩
      · split
        · exact ⟨_, _, rfl, by omega, by omega⟩
        · exact ⟨_, _, rfl, by omega, by omega⟩
    obtain ⟨k, tail, heq, hlow, hhigh⟩ := hhead
    have hlt := h (UInt8.ofNat k) (by rw [heq]; exact List.mem_cons_self)
    rw [UInt8.lt_iff_toNat_lt, UInt8.toNat_ofNat', Nat.mod_eq_of_lt hhigh] at hlt
    simp only [UInt8.reduceToNat] at hlt
    omega

/-- The characters of an ASCII text are its bytes. -/
theorem toList_eq_asciiChars {s : String} (h : (bytes s).all (· < 0x80) = true) :
    s.toList = asciiChars s := by
  rw [asciiChars, bytes_eq]
  rw [bytes_eq] at h
  generalize s.toList = cs at h
  induction cs with
  | nil => rfl
  | cons c cs ih =>
    rw [List.flatMap_cons, List.all_append, Bool.and_eq_true] at h
    obtain ⟨henc, hle⟩ := utf8EncodeChar_eq_of_lt (c := c) fun b hb => by
      simpa using List.all_eq_true.mp h.1 b hb
    rw [List.flatMap_cons, henc, List.map_append, ← ih h.2, List.map_singleton,
      UInt8.toNat_ofNat', Nat.mod_eq_of_lt (by omega), Char.ofNat_toNat]
    rfl

end Text

/-! ## The catalog -/

namespace Catalog

/-- The functions that are written as a subquery. -/
def subqueries : List String :=
  ["CALCULATE", "CALCULATETABLE", "TOTALYTD", "TOTALQTD", "TOTALMTD"]

/-- The holes that the rule of a function fills by itself. -/
def ruleHoles (name : String) : List String :=
  if subqueries.contains name then ["expression", "from", "where"]
  else if name == "SWITCH" then ["expression", "cases"]
  else if name == "SUMMARIZE" then ["table", "group_by", "aggregations"]
  else if name == "ADDCOLUMNS" || name == "SELECTCOLUMNS" then ["table", "columns"]
  else []

/-- Is the hole filled when arguments are put into the pattern one by one? -/
def isFilled (p : Pattern) (hole : String) : Bool :=
  p.params.contains hole || p.defaults.contains hole || hole == "table"

/-- Does a pattern with these holes keep the promise?  The rule of its function fills all holes, if
it has one; and so do its arguments, unless it is a subquery or the grouping, which misses one. -/
def isSettled (p : Pattern) (holes : List String) : Bool :=
  ((ruleHoles p.name).isEmpty || holes.all (ruleHoles p.name).contains)
    && (if subqueries.contains p.name then true
      else if p.name == "SUMMARIZE" then
        holes == ["group_by", "aggregations", "table"] && p.params == ["table", "group_by"]
          && p.defaults == []
      else holes.all (isFilled p))

/-- The catalog, evaluated. -/
theorem builtin_isSettled :
    (builtin.all fun p =>
      (Text.bytes p.template).all (· < 0x80) && (Text.bytes p.name).all (· < 0x80)
        && (Text.asciiChars p.name).all (fun c => Text.isAscii c && c.toUpper == c)
        && isSettled p (Template.holesOf (Template.piecesOf (Text.asciiChars p.template)))) =
      true := by
  decide +kernel

/-- The holes of a template of the catalog, by its bytes. -/
theorem holes_of_mem {p : Pattern} (h : p ∈ builtin) : Template.holes p.template =
    Template.holesOf (Template.piecesOf (Text.asciiChars p.template)) := by
  have hp := List.all_eq_true.mp builtin_isSettled p h
  simp only [Bool.and_eq_true] at hp
  rw [← Text.toList_eq_asciiChars hp.1.1.1]
  rfl

/-- **Every pattern of the catalog keeps the promise.** -/
theorem isSettled_of_mem {p : Pattern} (h : p ∈ builtin) :
    isSettled p (Template.holes p.template) = true := by
  have hp := List.all_eq_true.mp builtin_isSettled p h
  simp only [Bool.and_eq_true] at hp
  rw [holes_of_mem h]
  exact hp.2

/-- The names of the catalog are in capitals. -/
theorem upper_name_of_mem {p : Pattern} (h : p ∈ builtin) : Text.upper p.name = p.name := by
  have hp := List.all_eq_true.mp builtin_isSettled p h
  simp only [Bool.and_eq_true] at hp
  have hcaps : ∀ c ∈ p.name.toList, Text.isAscii c = true ∧ c.toUpper = c := by
    rw [Text.toList_eq_asciiChars hp.1.1.2]
    intro c hc
    simpa using List.all_eq_true.mp hp.1.2 c hc
  rw [Text.upper_eq_asciiUpper fun c hc => (hcaps c hc).1, Text.asciiUpper,
    List.map_congr_left fun c hc => (hcaps c hc).2, List.map_id', String.ofList_toList]

/-- The holes of a pattern that a rule fills are those of the rule. -/
theorem mem_ruleHoles {p : Pattern} (h : p ∈ builtin) (hrule : ruleHoles p.name ≠ [])
    {hole : String} (hhole : hole ∈ Template.holes p.template) : hole ∈ ruleHoles p.name := by
  have hs := isSettled_of_mem h
  simp only [isSettled, Bool.and_eq_true, Bool.or_eq_true, List.isEmpty_iff] at hs
  rcases hs.1 with hempty | hall
  · exact absurd hempty hrule
  · simpa using List.all_eq_true.mp hall hole hhole

/-- The holes of a pattern that is neither a subquery nor the grouping are filled by arguments. -/
theorem isFilled_of_mem {p : Pattern} (h : p ∈ builtin) (hsub : p.name ∉ subqueries)
    (hgroup : p.name ≠ "SUMMARIZE") {hole : String} (hhole : hole ∈ Template.holes p.template) :
    hole ∈ p.params ∨ p.defaults.contains hole = true ∨ hole = "table" := by
  have hs := isSettled_of_mem h
  have hsub' : subqueries.contains p.name = false := by simpa using hsub
  have hgroup' : (p.name == "SUMMARIZE") = false := by simpa using hgroup
  simp only [isSettled, hsub', hgroup', Bool.and_eq_true, Bool.false_eq_true, if_false] at hs
  have hfilled := List.all_eq_true.mp hs.2 hole hhole
  simpa [isFilled, or_assoc] using hfilled

/-- The grouping has a hole that is no parameter and has no default. -/
theorem grouping_of_mem {p : Pattern} (h : p ∈ builtin) (hgroup : p.name = "SUMMARIZE") :
    Template.holes p.template = ["group_by", "aggregations", "table"] ∧
      p.params = ["table", "group_by"] ∧ p.defaults = [] := by
  have hs := isSettled_of_mem h
  have hsub : subqueries.contains p.name = false := by rw [hgroup]; decide
  have hgroup' : (p.name == "SUMMARIZE") = true := by simpa using hgroup
  simp only [isSettled, hsub, hgroup', Bool.and_eq_true, Bool.false_eq_true, if_false, if_true,
    beq_iff_eq] at hs
  exact ⟨hs.2.1.1, hs.2.1.2, hs.2.2⟩

end Catalog

/-! ## The library with the catalog -/

namespace PatternLibrary

/-- A pattern is found under the capital form of the name it was looked up by. -/
theorem name_of_get? {l : PatternLibrary} {function : String} {p : Pattern}
    (h : l.get? function = some p) : p ∈ l.patterns ∧ p.name = Text.upper function := by
  refine ⟨List.mem_of_find?_eq_some h, ?_⟩
  simpa using List.find?_some h

/-- Patterns with names of their own in capitals are added one after the other. -/
theorem foldl_add {ps : List Pattern} (hupper : ∀ p ∈ ps, Text.upper p.name = p.name)
    (l : PatternLibrary) (hnodup : ((l.patterns ++ ps).map (·.name)).Nodup) :
    ps.foldl add l = ⟨l.patterns ++ ps⟩ := by
  induction ps generalizing l with
  | nil => simp
  | cons p ps ih =>
    obtain ⟨hp, hps⟩ := List.forall_mem_cons.mp hupper
    have hnew : l.patterns.any (·.name == p.name) = false := by
      simp only [List.map_append, List.map_cons, List.nodup_append] at hnodup
      simp only [List.any_eq_false, beq_iff_eq]
      exact fun q hq heq => hnodup.2.2 q.name (List.mem_map_of_mem hq) p.name (by simp) heq
    have hadd : l.add p = ⟨l.patterns ++ [p]⟩ := by
      simp [add, hp, hnew]
    rw [List.foldl_cons, hadd, ih hps]
    · simp
    · simpa using hnodup

/-- **The library with the catalog is the catalog**, in its order. -/
theorem builtin_eq : builtin = ⟨Catalog.builtin⟩ := by
  have hnodup : (Catalog.builtin.map (·.name)).Nodup := by
    decide +kernel
  exact foldl_add (fun p hp => Catalog.upper_name_of_mem hp) empty hnodup

/-- **What is found in the library stands in the catalog under that name.** -/
theorem mem_builtin_of_get? {function : String} {p : Pattern}
    (h : builtin.get? function = some p) :
    p ∈ Catalog.builtin ∧ p.name = Text.upper function := by
  rw [builtin_eq] at h
  exact name_of_get? h

/-- **Every pattern of the catalog is found by every spelling of its name.** -/
theorem exists_get?_builtin {p : Pattern} (h : p ∈ Catalog.builtin) {function : String}
    (hname : Text.upper function = p.name) : ∃ q, builtin.get? function = some q := by
  have hsome : (builtin.get? function).isSome = true := by
    rw [builtin_eq, get?, List.find?_isSome]
    exact ⟨p, h, by simp [hname]⟩
  exact Option.isSome_iff_exists.mp hsome

/-- A pattern of the catalog is found by its name. -/
theorem exists_get?_of_name {name : String} (h : ∃ p ∈ Catalog.builtin, p.name = name) :
    ∃ p ∈ Catalog.builtin, builtin.get? name = some p ∧ p.name = name := by
  obtain ⟨q, hq, rfl⟩ := h
  have hupper := Catalog.upper_name_of_mem hq
  obtain ⟨p, hp⟩ := exists_get?_builtin hq hupper
  obtain ⟨hmem, hname⟩ := mem_builtin_of_get? hp
  exact ⟨p, hmem, hp, hname.trans hupper⟩

end PatternLibrary

end MeasureSql
