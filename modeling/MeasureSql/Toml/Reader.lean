import MeasureSql.Toml.Quoted
import MeasureSql.Toml.Scalar
import MeasureSql.Toml.Tree

/-!
# Reading TOML

A reader for TOML documents.  Each reader takes the characters that are left and returns what it
read with those that follow, or nothing when the text breaks the grammar; nesting is bounded by a
fuel argument that the length of the text always covers.

## Main definitions

* `Toml.value?` — a value.
* `Toml.read?` — the table of a whole document.
-/

namespace MeasureSql.Toml

/-- What follows the blanks inside a line. -/
def skipSpaces (cs : List Char) : List Char :=
  cs.dropWhile isSpace

/-- What follows an optional comment, up to the end of the line. -/
def skipComment : List Char → List Char
  | '#' :: rest => rest.dropWhile isPlain
  | cs => cs

/-- What follows the end of a line, before which a comment may stand; the end of the text will do,
too. -/
def afterLine? (cs : List Char) : Option (List Char) :=
  match skipComment (skipSpaces cs) with
  | [] => some []
  | rest => afterNewline? rest

/-- What follows blanks, comments and line ends, as they may stand between the items of an array. -/
def skipLines : Nat → List Char → List Char
  | 0, cs => cs
  | fuel + 1, cs =>
    let rest := skipComment (skipSpaces cs)
    match afterNewline? rest with
    | some rest => skipLines fuel rest
    | none => rest

/-! ## Keys -/

/-- Can a key without quotes hold the character? -/
def isBareChar (c : Char) : Bool :=
  c.isAlphanum || c == '_' || c == '-'

/-- One part of a key. -/
def keyPart? (cs : List Char) : Option (String × List Char) :=
  match cs with
  | '"' :: rest => quoted? '"' rest
  | '\x27' :: rest => quoted? '\x27' rest
  | _ =>
    let part := cs.takeWhile isBareChar
    if part.isEmpty then none else some (String.ofList part, cs.dropWhile isBareChar)

/-- A key: parts with points between them. -/
def key? : Nat → List Char → Option (List String × List Char)
  | 0, _ => none
  | fuel + 1, cs => do
    let (part, rest) ← keyPart? cs
    match skipSpaces rest with
    | '.' :: rest => do
      let (others, rest) ← key? fuel (skipSpaces rest)
      some (part :: others, rest)
    | rest => some ([part], rest)

/-- A key, with its last part apart. -/
def splitKey? (cs : List Char) : Option (List String × String × List Char) := do
  let (parts, rest) ← key? (cs.length + 1) cs
  some (parts.dropLast, ← parts.getLast?, rest)

/-! ## Values -/

mutual

/-- A value. -/
def valueFrom? : Nat → List Char → Option (Toml × List Char)
  | 0, _ => none
  | fuel + 1, cs => match cs with
    | '"' :: rest => (text? '"' rest).map fun (s, rest) => (.text s, rest)
    | '\x27' :: rest => (text? '\x27' rest).map fun (s, rest) => (.text s, rest)
    | '[' :: rest => do
      let (items, rest) ← itemsFrom? fuel rest
      some (.array items, rest)
    | '\x7b' :: rest => match skipSpaces rest with
      | '\x7d' :: rest => some (.table [], rest)
      | rest => do
        let (entries, rest) ← entriesFrom? fuel [] rest
        some (.table (entriesToToml entries), rest)
    | _ =>
      let (run, rest) := scalarRun cs
      (scalar? run).map fun value => (value, rest)

/-- The items of an array, after its opening bracket or a comma. -/
def itemsFrom? : Nat → List Char → Option (List Toml × List Char)
  | 0, _ => none
  | fuel + 1, cs => match skipLines (cs.length + 1) cs with
    | ']' :: rest => some ([], rest)
    | cs => do
      let (item, rest) ← valueFrom? fuel cs
      match skipLines (rest.length + 1) rest with
      | ',' :: rest => do
        let (others, rest) ← itemsFrom? fuel rest
        some (item :: others, rest)
      | ']' :: rest => some ([item], rest)
      | _ => none

/-- The entries of a table in braces, after its opening brace or a comma. -/
def entriesFrom? : Nat → Entries → List Char → Option (Entries × List Char)
  | 0, _, _ => none
  | fuel + 1, entries, cs => do
    let (path, key, rest) ← splitKey? (skipSpaces cs)
    let (value, rest) ← valueFrom? fuel (skipSpaces (← after? '=' rest))
    let entries ← define path key value entries
    match skipSpaces rest with
    | ',' :: rest => entriesFrom? fuel entries rest
    | '\x7d' :: rest => some (entries, rest)
    | _ => none

end

/-- A value. -/
def value? (cs : List Char) : Option (Toml × List Char) :=
  valueFrom? (2 * cs.length + 2) cs

/-! ## Documents -/

/-- The tables so far, and the path of the last header. -/
structure Progress where
  header : List String := []
  root : Entries := []

/-- A header, after its opening brackets. -/
def headerLine? (p : Progress) (isSeries : Bool) (cs : List Char) :
    Option (Progress × List Char) := do
  let (path, key, rest) ← splitKey? (skipSpaces cs)
  let rest ← after? ']' rest
  let rest ← if isSeries then after? ']' rest else some rest
  let root ← if isSeries then openSeries path key p.root else openTable path key p.root
  some (⟨path ++ [key], root⟩, ← afterLine? rest)

/-- A key with its value. -/
def entryLine? (p : Progress) (cs : List Char) : Option (Progress × List Char) := do
  let (path, key, rest) ← splitKey? cs
  let (value, rest) ← value? (skipSpaces (← after? '=' rest))
  some ({ p with root := ← defineUnder p.header path key value p.root }, ← afterLine? rest)

/-- One line, or the several lines of one entry. -/
def line? (p : Progress) (cs : List Char) : Option (Progress × List Char) :=
  match skipSpaces cs with
  | '[' :: '[' :: rest => headerLine? p true rest
  | '[' :: rest => headerLine? p false rest
  | rest => match afterLine? rest with
    | some rest => some (p, rest)
    | none => entryLine? p rest

/-- All lines. -/
def lines? : Nat → Progress → List Char → Option Progress
  | _, p, [] => some p
  | 0, _, _ :: _ => none
  | fuel + 1, p, cs => do
    let (p, rest) ← line? p cs
    lines? fuel p rest

/-- The table of a whole document, which may begin with a byte order mark. -/
def read? (s : String) : Option Toml := do
  let cs := match s.toList with
    | '\uFEFF' :: rest => rest
    | cs => cs
  let p ← lines? cs.length {} cs
  some (.table (entriesToToml p.root))

end MeasureSql.Toml
