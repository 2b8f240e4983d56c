import MeasureSql.Text.Identifier

/-!
# Finding words

Whether a text holds a given word in any case, as a whole word: no word character touches it on
either side.  Case is ignored one character at a time, so that the long s and the kelvin sign
count as the letters S and K.

## Main definitions

* `capital` — the capital that a character stands for when case is ignored.
* `afterWord?` — what follows a word at the head of a text.
* `holdsWord` — is a word in a text?
-/

namespace MeasureSql.Text

/-- The capital from A to Z that a character stands for, or the character itself. -/
def capital (c : Char) : Char :=
  if c.toNat == 0x17F then 'S' else if c.toNat == 0x212A then 'K' else c.toUpper

/-- What follows a word in capitals at the head of a text, if it is there in any case. -/
def afterWord? : List Char → List Char → Option (List Char)
  | [], cs => some cs
  | _ :: _, [] => none
  | w :: word, c :: cs => if capital c == w then afterWord? word cs else none

/-- Does no word character stand at the head of a text? -/
def atWordEnd (cs : List Char) : Bool :=
  !(cs.head?.map isWordChar).getD false

/-- Is a word in capitals at the head of a text, and does it end there? -/
def startsWithWord (word cs : List Char) : Bool :=
  ((afterWord? word cs).map atWordEnd).getD false

/-- Does a text hold a word in capitals, where `inWord` says that a word character stands before
the text? -/
def holdsWord (word : List Char) (inWord : Bool) : List Char → Bool
  | [] => false
  | c :: cs =>
    (!inWord && startsWithWord word (c :: cs)) || holdsWord word (isWordChar c) cs

end MeasureSql.Text
