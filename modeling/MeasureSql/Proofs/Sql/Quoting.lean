import MeasureSql.Sql.Dialect

/-!
# Quoted texts are read back

A reader of SQL takes a quoted text up to the first closing mark that is not doubled, and a doubled
mark for the mark itself.  It finds the end of what `quoteBetween` writes whatever the text is, so
no text can leave its quotes, unless the closing mark stands right behind them.

## Main definitions

* `readQuoted?` — the text behind an opening mark, and what follows its quotes.
* `readName?`, `readString?` — a quoted name and a string literal of a dialect.

## Main results

* `readQuoted?_doubled` — a text with its closing marks doubled is passed over as a whole.
* `reads_quoted` — names and strings are read back, and what follows them is left.
-/

namespace MeasureSql.Sql

/-! ## One quoted text -/

/-- The text behind an opening mark, up to the closing mark, and what follows it. -/
def readQuoted? (right : Char) : List Char → Option (List Char × List Char)
  | [] => none
  | c :: rest =>
    if c == right then match rest with
      | [] => some ([], [])
      | d :: more =>
        if d == right then (readQuoted? right more).map fun read => (right :: read.1, read.2)
        else some ([], rest)
    else (readQuoted? right rest).map fun read => (c :: read.1, read.2)

variable {left right : Char}

attribute [local simp] readQuoted?

theorem readQuoted?_twice (rest : List Char) :
    readQuoted? right (right :: right :: rest) =
      (readQuoted? right rest).map fun read => (right :: read.1, read.2) := by
  simp [readQuoted?]

theorem readQuoted?_of_ne {c : Char} (h : c ≠ right) (rest : List Char) :
    readQuoted? right (c :: rest) =
      (readQuoted? right rest).map fun read => (c :: read.1, read.2) := by
  cases rest <;> simp [readQuoted?, h]

/-- A single closing mark ends the text. -/
theorem readQuoted?_end {rest : List Char} (h : rest.head? ≠ some right) :
    readQuoted? right (right :: rest) = some ([], rest) := by
  cases rest with
  | nil => simp [readQuoted?]
  | cons d more =>
    have other : d ≠ right := by simpa using h
    simp [readQuoted?, other]

/-- **A text with its closing marks doubled** is passed over as a whole, whatever follows. -/
theorem readQuoted?_doubled (cs rest : List Char) :
    readQuoted? right (Text.doubled (· == right) cs ++ rest) =
      (readQuoted? right rest).map fun read => (cs ++ read.1, read.2) := by
  induction cs with
  | nil => simp [Text.doubled]
  | cons c cs ih =>
    rw [Text.doubled]
    split
    · next same =>
      obtain rfl : c = right := by simpa using same
      rw [List.cons_append, List.cons_append, readQuoted?_twice, ih, Option.map_map]
      rfl
    · next other =>
      rw [List.cons_append, readQuoted?_of_ne (by simpa using other), ih, Option.map_map]
      rfl

/-- A text and its closing mark are read as the text, as long as no other mark follows; behind one
the reader goes on, and what it reads is longer. -/
theorem readQuoted?_doubled_end (cs rest : List Char) :
    readQuoted? right (Text.doubled (· == right) cs ++ right :: rest) = some (cs, rest) ↔
      rest.head? ≠ some right := by
  rw [readQuoted?_doubled]
  constructor
  · intro reads next
    obtain ⟨more, rfl⟩ := List.head?_eq_some_iff.mp next
    rw [readQuoted?_twice, Option.map_map] at reads
    obtain ⟨read, -, longer⟩ := Option.map_eq_some_iff.mp reads
    have same : cs ++ right :: read.1 = cs := congrArg Prod.fst longer
    simp at same
  · intro next
    simp [readQuoted?_end next]

/-! ## Tokens of a dialect -/

/-- A text between two marks at the head of SQL, and what follows it. -/
def readBetween? (left right : Char) : List Char → Option (String × String)
  | [] => none
  | c :: rest =>
    if c == left then
      (readQuoted? right rest).map fun read => (String.ofList read.1, String.ofList read.2)
    else none

/-- The marks around a quoted name. -/
def nameMarks : Dialect → Char × Char
  | .snowflake | .postgres | .duckdb => ('"', '"')
  | .bigquery => ('\x60', '\x60')
  | .tsql => ('[', ']')

/-- What stands before the quotes of a string literal. -/
def stringLead : Dialect → List Char
  | .tsql => ['N']
  | _ => []

/-- A quoted name at the head of SQL, and what follows it. -/
def readName? (d : Dialect) (sql : String) : Option (String × String) :=
  readBetween? (nameMarks d).1 (nameMarks d).2 sql.toList

/-- A string literal at the head of SQL, and what follows it. -/
def readString? (d : Dialect) (sql : String) : Option (String × String) :=
  if (stringLead d).isPrefixOf sql.toList then
    readBetween? '\x27' '\x27' (sql.toList.drop (stringLead d).length)
  else none

theorem readBetween?_quoteBetween (s rest : String) :
    readBetween? left right ((quoteBetween left right s).toList ++ rest.toList) = some (s, rest) ↔
      rest.toList.head? ≠ some right := by
  have text : (quoteBetween left right s).toList ++ rest.toList =
      left :: (Text.doubled (· == right) s.toList ++ right :: rest.toList) := by
    simp [quoteBetween]
  rw [text, ← readQuoted?_doubled_end s.toList, readBetween?, if_pos (by simp),
    Option.map_eq_some_iff]
  constructor
  · rintro ⟨⟨cs, r⟩, reads, same⟩
    obtain ⟨rfl, rfl⟩ := Prod.mk.inj same
    rw [reads, String.toList_ofList, String.toList_ofList]
  · intro reads
    exact ⟨_, reads, by simp⟩

theorem quoteIdentifier_eq (d : Dialect) (s : String) :
    d.quoteIdentifier s = quoteBetween (nameMarks d).1 (nameMarks d).2 s := by
  cases d <;> rfl

theorem toList_quoteString (d : Dialect) (s : String) :
    (d.quoteString s).toList = stringLead d ++ (quoteBetween '\x27' '\x27' s).toList := by
  cases d <;> simp [Dialect.quoteString, quoteSingle, stringLead]

/-- A quoted name is read back, and what follows it is left. -/
theorem readName?_quoteIdentifier (d : Dialect) (s rest : String) :
    readName? d (d.quoteIdentifier s ++ rest) = some (s, rest) ↔
      rest.toList.head? ≠ some (nameMarks d).2 := by
  rw [readName?, quoteIdentifier_eq, String.toList_append]
  exact readBetween?_quoteBetween s rest

/-- A string literal is read back, and what follows it is left. -/
theorem readString?_quoteString (d : Dialect) (s rest : String) :
    readString? d (d.quoteString s ++ rest) = some (s, rest) ↔
      rest.toList.head? ≠ some '\x27' := by
  rw [readString?, String.toList_append, toList_quoteString, List.append_assoc,
    if_pos (by simp), List.drop_left]
  exact readBetween?_quoteBetween s rest

/-- What a reader gives back cannot have been the same for two texts. -/
theorem injective_of_reads {read? : String → Option (String × String)} {quote : String → String}
    (h : ∀ s, read? (quote s ++ "") = some (s, "")) : Function.Injective quote := by
  intro s s' same
  have reads := h s
  rw [same, h s'] at reads
  exact congrArg Prod.fst (Option.some.inj reads).symm

/-- **Quoting cannot be left.**  In every dialect a reader of SQL finds at the head of a string
literal, or of a quoted name, exactly the text that was quoted, and leaves what follows it, exactly
when what follows does not begin with the closing mark.  So different texts are quoted
differently. -/
theorem reads_quoted (d : Dialect) :
    (∀ s rest : String, readString? d (d.quoteString s ++ rest) = some (s, rest) ↔
      rest.toList.head? ≠ some '\x27') ∧
    (∀ s rest : String, readName? d (d.quoteIdentifier s ++ rest) = some (s, rest) ↔
      rest.toList.head? ≠ some (nameMarks d).2) ∧
    Function.Injective d.quoteString ∧ Function.Injective d.quoteIdentifier :=
  ⟨readString?_quoteString d, readName?_quoteIdentifier d,
    injective_of_reads fun s => (readString?_quoteString d s "").mpr (by simp),
    injective_of_reads fun s => (readName?_quoteIdentifier d s "").mpr (by simp)⟩

/-- A bracket inside a name is no way out of it. -/
example : readName? .tsql (Dialect.tsql.quoteIdentifier "a] = 1 --" ++ " > 0") =
    some ("a] = 1 --", " > 0") := by
  cbv

end MeasureSql.Sql
