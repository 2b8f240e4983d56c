import MeasureSql.Toml.Basic

/-!
# Quoted TOML text

The four forms of quoted text: with escapes or without, on one line or over several.

## Main definitions

* `Toml.quoted?` — a text on one line, as it may also stand for a key.
* `Toml.text?` — a text of any form.
-/

namespace MeasureSql.Toml

/-- May the character stand in a text as it is?  Control characters may not, but for a tabulator. -/
def isPlain (c : Char) : Bool :=
  c == '\t' || (0x20 ≤ c.toNat && c.toNat != 0x7F)

/-- Hexadecimal digits that name a character. -/
def codePoint? (count : Nat) (cs : List Char) : Option (Char × List Char) := do
  let digits ← (cs.take count).mapM hexValue?
  if digits.length == count then
    let n := digits.foldl (fun n d => 16 * n + d) 0
    if n < 0xD800 || (0xE000 ≤ n && n < 0x110000) then some (Char.ofNat n, cs.drop count) else none
  else none

/-- The character that an escape stands for, after the backslash. -/
def escape? : List Char → Option (Char × List Char)
  | 'b' :: cs => some ('\x08', cs)
  | 't' :: cs => some ('\t', cs)
  | 'n' :: cs => some ('\n', cs)
  | 'f' :: cs => some ('\x0c', cs)
  | 'r' :: cs => some ('\r', cs)
  | '"' :: cs => some ('"', cs)
  | '\\' :: cs => some ('\\', cs)
  | 'u' :: cs => codePoint? 4 cs
  | 'U' :: cs => codePoint? 8 cs
  | _ => none

/-- What follows the end of a line. -/
def afterNewline? : List Char → Option (List Char)
  | '\n' :: cs => some cs
  | '\r' :: '\n' :: cs => some cs
  | _ => none

/-- A blank inside a line. -/
def isSpace (c : Char) : Bool :=
  c == ' ' || c == '\t'

/-- The rest of a text on one line, where `escapes` says whether a backslash begins an escape. -/
def lineText? (quote : Char) (escapes : Bool) : Nat → List Char → Option (List Char × List Char)
  | 0, _ => none
  | fuel + 1, cs => match cs with
    | [] => none
    | c :: rest =>
      if c == quote then some ([], rest)
      else if escapes && c == '\\' then do
        let (e, rest) ← escape? rest
        let (others, rest) ← lineText? quote escapes fuel rest
        some (e :: others, rest)
      else if isPlain c then do
        let (others, rest) ← lineText? quote escapes fuel rest
        some (c :: others, rest)
      else none

/-- What follows a backslash that ends a line; the blanks and line ends after it mean nothing. -/
def afterFold? (cs : List Char) : Option (List Char) :=
  (afterNewline? (cs.dropWhile isSpace)).map fun rest =>
    rest.dropWhile fun c => isSpace c || c == '\n' || c == '\r'

/-- The rest of a text over several lines.  Three quotes close it, and up to two more before them
belong to the text. -/
def blockText? (quote : Char) (escapes : Bool) : Nat → List Char → Option (List Char × List Char)
  | 0, _ => none
  | fuel + 1, cs => match cs with
    | [] => none
    | c :: rest =>
      if c == quote then
        let run := cs.takeWhile (· == quote)
        let rest := cs.dropWhile (· == quote)
        if run.length < 3 then do
          let (others, rest) ← blockText? quote escapes fuel rest
          some (run ++ others, rest)
        else if run.length ≤ 5 then some (run.drop 3, rest)
        else none
      else if escapes && c == '\\' then
        match afterFold? rest with
        | some rest => blockText? quote escapes fuel rest
        | none => do
          let (e, rest) ← escape? rest
          let (others, rest) ← blockText? quote escapes fuel rest
          some (e :: others, rest)
      else match afterNewline? cs with
        | some rest => do
          let (others, rest) ← blockText? quote escapes fuel rest
          some ('\n' :: others, rest)
        | none =>
          if isPlain c then do
            let (others, rest) ← blockText? quote escapes fuel rest
            some (c :: others, rest)
          else none

/-- A text on one line, after its opening quote. -/
def quoted? (quote : Char) (cs : List Char) : Option (String × List Char) :=
  (lineText? quote (quote == '"') (cs.length + 1) cs).map fun (cs, rest) => (String.ofList cs, rest)

/-- A text of any form, after its first quote. -/
def text? (quote : Char) (cs : List Char) : Option (String × List Char) :=
  match cs with
  | c :: d :: rest =>
    if c == quote && d == quote then
      let rest := (afterNewline? rest).getD rest
      (blockText? quote (quote == '"') (rest.length + 1) rest).map fun (cs, rest) =>
        (String.ofList cs, rest)
    else quoted? quote cs
  | _ => quoted? quote cs

end MeasureSql.Toml
