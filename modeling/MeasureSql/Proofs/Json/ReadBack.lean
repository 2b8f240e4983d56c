import Mathlib.Data.List.Basic
import MeasureSql.Json.Printer
import MeasureSql.Json.Reader

/-!
# Written values are read back

A JSON value without numbers, spread over lines, is read back as it was, whatever follows it.  A
reader spends fuel on each level and on each item, and every level and every item takes characters
of the text, so twice the length of a text is fuel enough to read it.

## Main definitions

* `Json.hasNumber` — does a number occur in a value?

## Main results

* `Json.readString?_escaped` — a text between quotes.
* `Json.readsBack` — a value at some level, in a longer text.
* `Json.read?_pretty` — a whole text.
-/

namespace MeasureSql.Json

/-! ## Quoted texts -/

theorem hexValue?_hexDigit : ∀ n < 16, hexValue? (hexDigit n) = some n := by
  decide

/-- A control character is read from its four digits. -/
theorem readUnicode?_control {c : Char} (control : c.toNat < 0x20) (rest : List Char) :
    readUnicode? ('0' :: '0' :: hexDigit (c.toNat / 16) :: hexDigit (c.toNat % 16) :: rest) =
      some (c, rest) := by
  have zero : hexValue? '0' = some 0 := rfl
  have high := hexValue?_hexDigit (c.toNat / 16) (by omega)
  have low := hexValue?_hexDigit (c.toNat % 16) (by omega)
  have unit : ((0 * 16 + 0) * 16 + c.toNat / 16) * 16 + c.toNat % 16 = c.toNat := by omega
  have noLow : ¬ 0xDC00 ≤ c.toNat := by omega
  have noHigh : ¬ 0xD800 ≤ c.toNat := by omega
  simp only [readUnicode?, readHex4?, zero, high, low, Option.bind_eq_bind, Option.bind_some, unit,
    decide_eq_false noLow, decide_eq_false noHigh, Bool.false_and, Bool.false_eq_true, if_false,
    Char.ofNat_toNat]

/-- **How a character is escaped**: with a backslash before what is read back as it, or not at
all. -/
theorem escapedChar_spec (c : Char) :
    (∃ tail, escapedChar c = '\\' :: tail ∧ ∀ rest, readEscape? (tail ++ rest) = some (c, rest)) ∨
      escapedChar c = [c] ∧ c ≠ '"' ∧ c ≠ '\\' ∧ ¬c.toNat < 0x20 := by
  by_cases letter : c ∈ ['"', '\\', '\x08', '\x0c', '\n', '\r', '\t']
  · left
    simp only [List.mem_cons, List.not_mem_nil, or_false] at letter
    rcases letter with rfl | rfl | rfl | rfl | rfl | rfl | rfl <;>
      exact ⟨[_], rfl, fun _ => rfl⟩
  · have plain : escapedChar c = if c.toNat < 0x20 then
        ['\\', 'u', '0', '0', hexDigit (c.toNat / 16), hexDigit (c.toNat % 16)] else [c] := by
      simp only [List.mem_cons, List.not_mem_nil, or_false, not_or] at letter
      simp only [escapedChar, beq_iff_eq, letter, if_false]
    rw [plain]
    by_cases control : c.toNat < 0x20
    · exact .inl ⟨_, if_pos control, readUnicode?_control control⟩
    · exact .inr ⟨if_neg control, fun quote => letter (by simp [quote]),
        fun slash => letter (by simp [slash]), control⟩

/-- **One character** of a quoted text is read from its escape. -/
theorem readStringFrom?_escapedChar (fuel : Nat) (done : List Char) (c : Char) (rest : List Char) :
    readStringFrom? (fuel + 1) done (escapedChar c ++ rest) =
      readStringFrom? fuel (c :: done) rest := by
  obtain ⟨tail, text, read⟩ | ⟨text, quote, slash, high⟩ := escapedChar_spec c
  · rw [text, List.cons_append, readStringFrom?]
    simp only [read, Option.bind_eq_bind, Option.bind_some]
  · rw [text, List.singleton_append]
    simp only [readStringFrom?, if_neg high]

theorem readStringFrom?_flatMap (cs : List Char) {fuel : Nat} (enough : cs.length < fuel)
    (done rest : List Char) :
    readStringFrom? fuel done (cs.flatMap escapedChar ++ '"' :: rest) =
      some (String.ofList (done.reverse ++ cs), rest) := by
  induction cs generalizing fuel done with
  | nil =>
    obtain ⟨fuel, rfl⟩ := Nat.exists_eq_add_of_lt enough
    simp [readStringFrom?]
  | cons c cs ih =>
    obtain ⟨fuel, rfl⟩ : ∃ n, fuel = n + 1 := ⟨fuel - 1, by simp at enough; omega⟩
    rw [List.flatMap_cons, List.append_assoc, readStringFrom?_escapedChar,
      ih (by simpa using enough)]
    simp

theorem escapedChar_ne_nil (c : Char) : escapedChar c ≠ [] := by
  obtain ⟨tail, text, -⟩ | ⟨text, -⟩ := escapedChar_spec c <;> simp [text]

theorem length_le_flatMap (cs : List Char) : cs.length ≤ (cs.flatMap escapedChar).length := by
  induction cs with
  | nil => simp
  | cons c cs ih =>
    have pos := List.length_pos_iff.mpr (escapedChar_ne_nil c)
    simp only [List.flatMap_cons, List.length_append, List.length_cons]
    omega

/-- **A text between quotes is read back.** -/
theorem readString?_escaped (s : String) (rest : List Char) :
    readString? (s.toList.flatMap escapedChar ++ '"' :: rest) = some (s, rest) := by
  have enough := length_le_flatMap s.toList
  rw [readString?, readStringFrom?_flatMap _ (by simp only [List.length_append]; omega)]
  simp

theorem toList_escaped (s : String) :
    (escaped s).toList = '"' :: (s.toList.flatMap escapedChar ++ ['"']) := by
  simp [escaped]

/-! ## Values -/

mutual

/-- Does a number occur in the value? -/
def hasNumber : Json → Bool
  | .null | .bool _ | .str _ => false
  | .int _ | .float _ => true
  | .arr items => itemsHaveNumber items
  | .obj members => membersHaveNumber members

/-- Does a number occur in one of the items? -/
def itemsHaveNumber : List Json → Bool
  | [] => false
  | j :: js => hasNumber j || itemsHaveNumber js

/-- Does a number occur in the value of one of the members? -/
def membersHaveNumber : List (String × Json) → Bool
  | [] => false
  | (_, j) :: ms => hasNumber j || membersHaveNumber ms

end

/-- The characters with which a value other than a number begins. -/
def opensValue (c : Char) : Bool :=
  c == '"' || c == '[' || c == '\x7b' || c == 'n' || c == 't' || c == 'f'

/-- Only blanks. -/
def AllSpaces (cs : List Char) : Prop :=
  ∀ c ∈ cs, isSpace c = true

theorem skipSpaces_append {front : List Char} (blank : AllSpaces front) (rest : List Char) :
    skipSpaces (front ++ rest) = skipSpaces rest := by
  rw [skipSpaces, List.dropWhile_append_of_pos blank, skipSpaces]

theorem skipSpaces_of_opens {c : Char} (opens : opensValue c = true) (rest : List Char) :
    skipSpaces (c :: rest) = c :: rest := by
  have visible : isSpace c = false := by
    simp only [opensValue, Bool.or_eq_true, beq_iff_eq] at opens
    rcases opens with ((((rfl | rfl) | rfl) | rfl) | rfl) | rfl <;> rfl
  simp [skipSpaces, visible]

theorem allSpaces_indent (level : Nat) : AllSpaces (indent level).toList := by
  intro c hc
  simp only [indent, String.toList_append, String.toList_ofList, List.mem_append,
    List.mem_replicate] at hc
  rcases hc with hc | ⟨-, rfl⟩
  · obtain rfl : c = '\n' := by simpa using hc
    rfl
  · rfl

/-- **How a value begins.** -/
theorem exists_opens_prettyAt {j : Json} (plain : j.hasNumber = false) (level : Nat) :
    ∃ c cs, (prettyAt level j).toList = c :: cs ∧ opensValue c = true := by
  cases j with
  | null => exact ⟨'n', _, by rw [prettyAt]; rfl, rfl⟩
  | bool b =>
    cases b with
    | false => exact ⟨'f', _, by rw [prettyAt]; rfl, rfl⟩
    | true => exact ⟨'t', _, by rw [prettyAt]; rfl, rfl⟩
  | int n => cases plain
  | float x => cases plain
  | str s => exact ⟨'"', _, by rw [prettyAt, toList_escaped], rfl⟩
  | arr items =>
    rw [prettyAt, block]
    split
    · exact ⟨'[', _, rfl, rfl⟩
    · exact ⟨'[', _, by simp only [String.toList_append]; rfl, rfl⟩
  | obj members =>
    rw [prettyAt, block]
    split
    · exact ⟨'\x7b', _, rfl, rfl⟩
    · exact ⟨'\x7b', _, by simp only [String.toList_append]; rfl, rfl⟩

/-! ## Readers and blanks -/

section Blanks

variable {front : List Char} (blank : AllSpaces front) (fuel : Nat) (rest : List Char)
include blank

theorem readValue?_blank : readValue? fuel (front ++ rest) = readValue? fuel rest := by
  cases fuel with
  | zero => rfl
  | succ fuel => rw [readValue?, readValue?, skipSpaces_append blank]

theorem readItems?_blank : readItems? fuel (front ++ rest) = readItems? fuel rest := by
  cases fuel with
  | zero => rfl
  | succ fuel => rw [readItems?, readItems?, readValue?_blank blank]

theorem readMembers?_blank : readMembers? fuel (front ++ rest) = readMembers? fuel rest := by
  cases fuel with
  | zero => rfl
  | succ fuel => rw [readMembers?, readMembers?, skipSpaces_append blank]

end Blanks

theorem skipSpaces_mark {close : List Char} (blank : AllSpaces close) {mark : Char}
    (visible : isSpace mark = false) (rest : List Char) :
    skipSpaces (close ++ mark :: rest) = mark :: rest := by
  rw [skipSpaces_append blank, skipSpaces, List.dropWhile_cons_of_neg (by simp [visible])]

/-! ## Lists of values -/

/-- The value is read from its text, whatever follows, with fuel for twice the length. -/
def ReadsBack (level : Nat) (j : Json) : Prop :=
  ∀ fuel rest, 2 * (prettyAt level j).toList.length ≤ fuel →
    readValue? fuel ((prettyAt level j).toList ++ rest) = some (j, rest)

/-- Texts one after the other, with a comma and a new line before each. -/
def continued (level : Nat) (texts : List String) : List Char :=
  texts.flatMap fun text => ',' :: ((indent level).toList ++ text.toList)

theorem continued_cons (level : Nat) (text : String) (texts : List String) :
    continued level (text :: texts) =
      ',' :: ((indent level).toList ++ (text.toList ++ continued level texts)) := by
  simp [continued]

theorem intercalate_eq_continued (level : Nat) (text : String) (texts : List String) :
    (("," ++ indent level).intercalate (text :: texts)).toList =
      text.toList ++ continued level texts := by
  induction texts generalizing text with
  | nil => simp [continued]
  | cons next texts ih =>
    rw [String.intercalate_cons_cons, String.toList_append, ih]
    simp [continued]

section Items

variable {fuel : Nat} {cs close rest : List Char} {j : Json} (blank : AllSpaces close)
include blank

theorem readItems?_last (item : readValue? fuel cs = some (j, close ++ ']' :: rest)) :
    readItems? (fuel + 1) cs = some ([j], rest) := by
  have mark : skipSpaces (close ++ ']' :: rest) = ']' :: rest := skipSpaces_mark blank rfl rest
  simp only [readItems?, item, Option.bind_eq_bind, Option.bind_some, mark]

theorem readItems?_more {js : List Json} {rest' : List Char}
    (item : readValue? fuel cs = some (j, ',' :: (close ++ rest)))
    (items : readItems? fuel rest = some (js, rest')) :
    readItems? (fuel + 1) cs = some (j :: js, rest') := by
  have comma : skipSpaces (',' :: (close ++ rest)) = ',' :: (close ++ rest) := rfl
  simp only [readItems?, item, Option.bind_eq_bind, Option.bind_some, comma,
    readItems?_blank blank, items]

end Items

/-- **The items of an array are read back** up to its closing bracket. -/
theorem readItems?_continued {level : Nat} {j : Json} {js : List Json}
    (reads : ∀ i ∈ j :: js, ReadsBack level i) {close : List Char} (blank : AllSpaces close)
    {fuel : Nat} (rest : List Char)
    (enough : 2 * ((prettyAt level j).toList ++
      continued level (js.map (prettyAt level))).length + 1 ≤ fuel) :
    readItems? fuel ((prettyAt level j).toList ++
      (continued level (js.map (prettyAt level)) ++ (close ++ ']' :: rest))) =
        some (j :: js, rest) := by
  induction js generalizing j fuel with
  | nil =>
    obtain ⟨fuel, rfl⟩ : ∃ n, fuel = n + 1 := ⟨fuel - 1, by omega⟩
    refine readItems?_last blank (reads j (by simp) fuel _ ?_)
    simp only [List.length_append] at enough
    omega
  | cons k ks ih =>
    obtain ⟨fuel, rfl⟩ : ∃ n, fuel = n + 1 := ⟨fuel - 1, by omega⟩
    simp only [List.map_cons, continued_cons, List.length_append, List.length_cons] at enough
    have left : 2 * ((prettyAt level k).toList ++
        continued level (ks.map (prettyAt level))).length + 1 ≤ fuel := by
      rw [List.length_append]
      omega
    have later := ih (fun i hi => reads i (List.mem_cons_of_mem _ hi)) left
    refine readItems?_more (allSpaces_indent level) ?_ later
    simpa [continued_cons] using reads j (by simp) fuel _ (by omega)

/-- A member of an object, spread over lines. -/
def prettyMember (level : Nat) (member : String × Json) : String :=
  escaped member.1 ++ ": " ++ prettyAt level member.2

theorem toList_prettyMember (level : Nat) (member : String × Json) :
    (prettyMember level member).toList =
      '"' :: (member.1.toList.flatMap escapedChar ++
        '"' :: ':' :: ' ' :: (prettyAt level member.2).toList) := by
  simp [prettyMember, toList_escaped]

section Members

variable {level fuel : Nat} {m : String × Json} {close rest : List Char}
  (reads : ReadsBack level m.2) (enough : 2 * (prettyAt level m.2).toList.length ≤ fuel)
  (blank : AllSpaces close)
include reads enough

/-- A member is read: its name, and then its value after a blank. -/
theorem readValue?_member (rest : List Char) :
    readValue? fuel (' ' :: ((prettyAt level m.2).toList ++ rest)) = some (m.2, rest) := by
  rw [← reads fuel rest enough]
  have space : AllSpaces [' '] := by simp [AllSpaces, isSpace]
  exact readValue?_blank space fuel _

include blank

theorem readMembers?_last :
    readMembers? (fuel + 1) ((prettyMember level m).toList ++ (close ++ '\x7d' :: rest)) =
      some ([m], rest) := by
  have quote : ∀ cs, skipSpaces ('"' :: cs) = '"' :: cs := fun cs => rfl
  have colon : ∀ cs, skipSpaces (':' :: cs) = ':' :: cs := fun cs => rfl
  have mark : skipSpaces (close ++ '\x7d' :: rest) = '\x7d' :: rest :=
    skipSpaces_mark blank rfl rest
  rw [toList_prettyMember, readMembers?]
  simp only [List.cons_append, List.append_assoc, quote, readString?_escaped, colon, mark,
    readValue?_member reads enough, Option.bind_eq_bind, Option.bind_some]

theorem readMembers?_more {ms : List (String × Json)} {rest' : List Char}
    (members : readMembers? fuel rest = some (ms, rest')) :
    readMembers? (fuel + 1) ((prettyMember level m).toList ++ ',' :: (close ++ rest)) =
      some (m :: ms, rest') := by
  have quote : ∀ cs, skipSpaces ('"' :: cs) = '"' :: cs := fun cs => rfl
  have colon : ∀ cs, skipSpaces (':' :: cs) = ':' :: cs := fun cs => rfl
  have comma : ∀ cs, skipSpaces (',' :: cs) = ',' :: cs := fun cs => rfl
  rw [toList_prettyMember, readMembers?]
  simp only [List.cons_append, List.append_assoc, quote, readString?_escaped, colon, comma,
    readValue?_member reads enough, readMembers?_blank blank, members, Option.bind_eq_bind,
    Option.bind_some]

end Members

/-- **The members of an object are read back** up to its closing brace. -/
theorem readMembers?_continued {level : Nat} {m : String × Json} {ms : List (String × Json)}
    (reads : ∀ i ∈ m :: ms, ReadsBack level i.2) {close : List Char} (blank : AllSpaces close)
    {fuel : Nat} (rest : List Char)
    (enough : 2 * ((prettyMember level m).toList ++
      continued level (ms.map (prettyMember level))).length + 1 ≤ fuel) :
    readMembers? fuel ((prettyMember level m).toList ++
      (continued level (ms.map (prettyMember level)) ++ (close ++ '\x7d' :: rest))) =
        some (m :: ms, rest) := by
  induction ms generalizing m fuel with
  | nil =>
    obtain ⟨fuel, rfl⟩ : ∃ n, fuel = n + 1 := ⟨fuel - 1, by omega⟩
    rw [toList_prettyMember] at enough
    simp only [List.length_append, List.length_cons] at enough
    exact readMembers?_last (reads m (by simp)) (by omega) blank
  | cons k ks ih =>
    obtain ⟨fuel, rfl⟩ : ∃ n, fuel = n + 1 := ⟨fuel - 1, by omega⟩
    simp only [List.map_cons, continued_cons, List.length_append, List.length_cons] at enough
    have left : 2 * ((prettyMember level k).toList ++
        continued level (ks.map (prettyMember level))).length + 1 ≤ fuel := by
      rw [List.length_append]
      omega
    have later := ih (fun i hi => reads i (List.mem_cons_of_mem _ hi)) left
    rw [toList_prettyMember level m] at enough
    simp only [List.length_append, List.length_cons] at enough
    rw [List.map_cons, continued_cons]
    simpa using readMembers?_more (reads m (by simp)) (by omega) (allSpaces_indent level) later

/-! ## All values -/

theorem prettyItems_eq_map (level : Nat) (items : List Json) :
    prettyItems level items = items.map (prettyAt level) := by
  induction items with
  | nil => rfl
  | cons j js ih => rw [prettyItems, ih, List.map_cons]

theorem prettyMembers_eq_map (level : Nat) (members : List (String × Json)) :
    prettyMembers level members = members.map (prettyMember level) := by
  induction members with
  | nil => rfl
  | cons m ms ih => rw [prettyMembers, ih, List.map_cons, prettyMember]

/-- A block with something between its brackets. -/
theorem toList_block_cons (left right : String) (level : Nat) (text : String)
    (texts : List String) :
    (block left right level (text :: texts)).toList =
      left.toList ++ ((indent (level + 1)).toList ++ (text.toList ++
        (continued (level + 1) texts ++ ((indent level).toList ++ right.toList)))) := by
  simp only [block, List.isEmpty_cons, Bool.false_eq_true, if_false, String.toList_append,
    intercalate_eq_continued, List.append_assoc]

theorem expectWord?_append (word : String) (value : Json) (rest : List Char) :
    expectWord? word value (word.toList ++ rest) = some (value, rest) := by
  have front : word.toList.isPrefixOf (word.toList ++ rest) = true :=
    List.isPrefixOf_iff_prefix.mpr (List.prefix_append _ _)
  rw [expectWord?, if_pos front, ← String.length_toList, List.drop_left]

theorem toList_block_nil (left right : String) (level : Nat) :
    (block left right level []).toList = left.toList ++ right.toList := by
  simp [block]

section Brackets

variable {fuel : Nat} {cs tail rest : List Char} {c : Char} (inner : skipSpaces cs = c :: tail)
  (opens : opensValue c = true)
include inner opens

theorem readValue?_bracket {items : List Json}
    (read : readItems? fuel (c :: tail) = some (items, rest)) :
    readValue? (fuel + 1) ('[' :: cs) = some (.arr items, rest) := by
  have bracket : skipSpaces ('[' :: cs) = '[' :: cs := rfl
  simp only [readValue?, bracket, inner]
  split
  · next closed =>
    cases closed
    cases opens
  · rw [read, Option.map_some]

theorem readValue?_brace {members : List (String × Json)}
    (read : readMembers? fuel (c :: tail) = some (members, rest)) :
    readValue? (fuel + 1) ('\x7b' :: cs) = some (.obj members, rest) := by
  have brace : skipSpaces ('\x7b' :: cs) = '\x7b' :: cs := rfl
  simp only [readValue?, brace, inner]
  split
  · next closed =>
    cases closed
    cases opens
  · rw [read, Option.map_some]

end Brackets

/-- **An array is read back** if its items are. -/
theorem readsBack_arr {items : List Json} {level : Nat} (plain : itemsHaveNumber items = false)
    (reads : ∀ j ∈ items, ReadsBack (level + 1) j) : ReadsBack level (.arr items) := by
  intro fuel rest enough
  have left : ("[" : String).toList = ['['] := rfl
  have right : ("]" : String).toList = [']'] := rfl
  rw [prettyAt, prettyItems_eq_map] at enough ⊢
  cases items with
  | nil =>
    rw [List.map_nil, toList_block_nil, left, right] at enough ⊢
    obtain ⟨fuel, rfl⟩ : ∃ n, fuel = n + 1 := ⟨fuel - 1, by simp at enough; omega⟩
    simp [readValue?, skipSpaces, isSpace]
  | cons j js =>
    rw [itemsHaveNumber, Bool.or_eq_false_iff] at plain
    rw [List.map_cons, toList_block_cons, left, right] at enough ⊢
    simp only [List.length_append, List.length_singleton] at enough
    obtain ⟨fuel, rfl⟩ : ∃ n, fuel = n + 1 := ⟨fuel - 1, by omega⟩
    obtain ⟨c, cs, text, opens⟩ := exists_opens_prettyAt plain.1 (level + 1)
    have inner : 2 * ((prettyAt (level + 1) j).toList ++
        continued (level + 1) (js.map (prettyAt (level + 1)))).length + 1 ≤ fuel := by
      rw [List.length_append]
      omega
    have items := readItems?_continued reads (allSpaces_indent level) rest inner
    rw [text, List.cons_append] at items
    simp only [List.cons_append, List.nil_append, List.append_assoc, text]
    refine readValue?_bracket ?_ opens items
    rw [skipSpaces_append (allSpaces_indent _), skipSpaces_of_opens opens]

/-- **An object is read back** if the values of its members are. -/
theorem readsBack_obj {members : List (String × Json)} {level : Nat}
    (reads : ∀ m ∈ members, ReadsBack (level + 1) m.2) : ReadsBack level (.obj members) := by
  intro fuel rest enough
  have left : ("\x7b" : String).toList = ['\x7b'] := rfl
  have right : ("\x7d" : String).toList = ['\x7d'] := rfl
  rw [prettyAt, prettyMembers_eq_map] at enough ⊢
  cases members with
  | nil =>
    rw [List.map_nil, toList_block_nil, left, right] at enough ⊢
    obtain ⟨fuel, rfl⟩ : ∃ n, fuel = n + 1 := ⟨fuel - 1, by simp at enough; omega⟩
    simp [readValue?, skipSpaces, isSpace]
  | cons m ms =>
    rw [List.map_cons, toList_block_cons, left, right] at enough ⊢
    simp only [List.length_append, List.length_singleton] at enough
    obtain ⟨fuel, rfl⟩ : ∃ n, fuel = n + 1 := ⟨fuel - 1, by omega⟩
    have inner : 2 * ((prettyMember (level + 1) m).toList ++
        continued (level + 1) (ms.map (prettyMember (level + 1)))).length + 1 ≤ fuel := by
      rw [List.length_append]
      omega
    have members := readMembers?_continued reads (allSpaces_indent level) rest inner
    rw [toList_prettyMember, List.cons_append] at members
    simp only [List.cons_append, List.nil_append, List.append_assoc, toList_prettyMember]
    simp only [List.cons_append, List.append_assoc] at members
    refine readValue?_brace ?_ rfl members
    rw [skipSpaces_append (allSpaces_indent _), skipSpaces_of_opens rfl]

mutual

/-- **A value without numbers is read back.** -/
theorem readsBack : ∀ (j : Json) (level : Nat), j.hasNumber = false → ReadsBack level j
  | .null, level, _ => by
    intro fuel rest enough
    rw [prettyAt] at enough ⊢
    obtain ⟨fuel, rfl⟩ : ∃ n, fuel = n + 1 := ⟨fuel - 1, by simp at enough; omega⟩
    exact expectWord?_append "ull" .null rest
  | .bool b, level, _ => by
    intro fuel rest enough
    rw [prettyAt] at enough ⊢
    obtain ⟨fuel, rfl⟩ : ∃ n, fuel = n + 1 :=
      ⟨fuel - 1, by cases b <;> simp at enough <;> omega⟩
    cases b with
    | false => exact expectWord?_append "alse" (.bool false) rest
    | true => exact expectWord?_append "rue" (.bool true) rest
  | .int _, _, plain => by cases plain
  | .float _, _, plain => by cases plain
  | .str s, level, _ => by
    intro fuel rest enough
    rw [prettyAt, toList_escaped] at enough ⊢
    simp only [List.length_cons] at enough
    obtain ⟨fuel, rfl⟩ : ∃ n, fuel = n + 1 := ⟨fuel - 1, by omega⟩
    rw [List.cons_append, readValue?, skipSpaces_of_opens rfl]
    simp [readString?_escaped]
  | .arr items, level, plain => readsBack_arr plain (readsBack_items items (level + 1) plain)
  | .obj members, level, plain => readsBack_obj (readsBack_members members (level + 1) plain)

theorem readsBack_items : ∀ (items : List Json) (level : Nat), itemsHaveNumber items = false →
    ∀ j ∈ items, ReadsBack level j
  | [], _, _ => by simp
  | j :: js, level, plain => by
    rw [itemsHaveNumber, Bool.or_eq_false_iff] at plain
    rw [List.forall_mem_cons]
    exact ⟨readsBack j level plain.1, readsBack_items js level plain.2⟩

theorem readsBack_members : ∀ (members : List (String × Json)) (level : Nat),
    membersHaveNumber members = false → ∀ m ∈ members, ReadsBack level m.2
  | [], _, _ => by simp
  | (name, j) :: ms, level, plain => by
    rw [membersHaveNumber, Bool.or_eq_false_iff] at plain
    rw [List.forall_mem_cons]
    exact ⟨readsBack j level plain.1, readsBack_members ms level plain.2⟩

end

/-- **A text of a value without numbers holds that value.** -/
theorem read?_pretty {j : Json} (plain : j.hasNumber = false) : read? j.pretty = some j := by
  have whole := readsBack j 0 plain (2 * j.pretty.toList.length + 2) [] (by rw [pretty]; omega)
  rw [List.append_nil, ← pretty] at whole
  rw [read?, whole]
  rfl

end MeasureSql.Json
