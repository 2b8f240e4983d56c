import MeasureSql.Pattern.Template
import MeasureSql.Sql.Quoting

/-!
# How SQL is put together

The SQL of an expression is put together in few ways: texts stand side by side with a space or a
comma between them, behind a word or an operator, in parentheses, or behind a minus sign.  What the
names and literals are is left open.  A property of names and literals that all of these ways keep
holds of every text that is put together.

## Main definitions

* `Vocabulary` — which texts may be names, words and functions.
* `Composed` — the texts that are put together from a vocabulary.

## Main results

* `Composed.intercalate`, `Composed.call` — lists of texts.
-/

namespace MeasureSql.Sql

/-- The words that may end a text and are the same in all texts. -/
def fixedWords : List String :=
  ["*", "NULL", "END", "TRUE", "FALSE", "DESC", "ASC", "0", "1", "10", "-1", "day", "week", "month",
    "quarter", "year", "'month'", "'quarter'", "'year'"]

/-- The words and operators that another text comes after. -/
def leads : List String :=
  ["SELECT", "DISTINCT", "FROM", "WHERE", "JOIN", "CROSS", "ON", "GROUP", "ORDER", "BY", "LIMIT",
    "UNION", "ALL", "AS", "CASE", "WHEN", "THEN", "ELSE", "AND", "OR", "NOT", "IS", "BETWEEN", "=",
    "<>", "<", "<=", ">", ">=", "+", "-", "*", "/", "||"]

/-- What stands between the texts of a list. -/
def separators : List String := [" ", ", ", " AND "]

/-- Between two marks stand the characters of the text and its closing marks. -/
theorem not_mem_quoteBetween {c left right : Char} {s : String} (hleft : c ≠ left)
    (hright : c ≠ right) (h : c ∉ s.toList) : c ∉ (quoteBetween left right s).toList := by
  have inside : c ∉ Text.doubled (· == right) s.toList := by
    generalize s.toList = cs at h
    induction cs with
    | nil => simp [Text.doubled]
    | cons d ds ih =>
      rw [List.mem_cons, not_or] at h
      rw [Text.doubled]
      split <;> simp [h.1, ih h.2]
  simp [quoteBetween, hleft, hright, inside]

/-- Which texts may be names of tables and columns, words that stand by themselves, and names of
functions.  A name and two names with a point between them are words, the words of all texts are
words, and the names of functions in templates are names of functions.  A condition is filed under
the capital form of its table's name up to the first point, and its table may be named after
that. -/
structure Vocabulary where
  name : String → Prop
  word : String → Prop
  function : String → Prop
  word_of_name {a : String} (h : name a) : word a
  word_dotted {a b : String} (ha : name a) (hb : name b) : word (a ++ "." ++ b)
  word_fixed {a : String} (h : a ∈ fixedWords) : word a
  function_of_run {f : String} (h : f.toList.all Template.isNamePart = true) : function f
  name_of_key {a : String} (h : name a) :
    name (Text.lower (String.ofList ((Text.upper a).toList.takeWhile (· != '.'))))

/-- The texts that are put together from a vocabulary. -/
inductive Composed (V : Vocabulary) : String → Prop
  | word {a : String} (h : V.word a) : Composed V a
  | led {lead a : String} (h : lead ∈ leads) (ha : Composed V a) : Composed V (lead ++ " " ++ a)
  | beside {a b : String} (ha : Composed V a) (hb : Composed V b) : Composed V (a ++ " " ++ b)
  | listed {a b : String} (ha : Composed V a) (hb : Composed V b) : Composed V (a ++ ", " ++ b)
  | paren {a : String} (ha : Composed V a) : Composed V ("(" ++ a ++ ")")
  | applied {f a : String} (hf : V.function f) (ha : Composed V a) :
      Composed V (f ++ "(" ++ a ++ ")")
  | called {f : String} (hf : V.function f) : Composed V (f ++ "()")
  /-- Two minus signs never stand side by side. -/
  | negated {a : String} (h : a.toList.head? ≠ some '-') (ha : Composed V a) : Composed V ("-" ++ a)

namespace Composed

variable {V : Vocabulary} {a b lead : String}

theorem fixed (h : a ∈ fixedWords) : Composed V a :=
  .word (V.word_fixed h)

/-- A word or an operator between two texts. -/
theorem infixed (h : lead ∈ leads) (ha : Composed V a) (hb : Composed V b) :
    Composed V (a ++ " " ++ lead ++ " " ++ b) := by
  rw [show a ++ " " ++ lead ++ " " ++ b = a ++ " " ++ (lead ++ " " ++ b) by
    simp only [String.append_assoc]]
  exact ha.beside (.led h hb)

/-- What stands between two texts. -/
theorem joined {sep : String} (h : sep ∈ separators) (ha : Composed V a) (hb : Composed V b) :
    Composed V (a ++ sep ++ b) := by
  simp only [separators, List.mem_cons, List.not_mem_nil, or_false] at h
  rcases h with rfl | rfl | rfl
  · exact ha.beside hb
  · exact ha.listed hb
  · rw [show a ++ " AND " ++ b = a ++ " " ++ "AND" ++ " " ++ b by simp [← String.toList_inj]]
    exact infixed (by simp [leads]) ha hb

/-- **A list of texts**, one at least. -/
theorem intercalate {sep : String} (hsep : sep ∈ separators) {as : List String} (ne : as ≠ [])
    (h : ∀ a ∈ as, Composed V a) : Composed V (sep.intercalate as) := by
  induction as with
  | nil => exact absurd rfl ne
  | cons a as ih =>
    obtain ⟨ha, has⟩ := List.forall_mem_cons.mp h
    cases as with
    | nil => simpa using ha
    | cons b as =>
      rw [String.intercalate_cons_cons]
      exact joined hsep ha (ih (by simp) has)

/-- A call with any number of arguments. -/
theorem call {f : String} (hf : V.function f) {as : List String} (h : ∀ a ∈ as, Composed V a) :
    Composed V (f ++ "(" ++ ", ".intercalate as ++ ")") := by
  cases as with
  | nil =>
    rw [show f ++ "(" ++ ", ".intercalate [] ++ ")" = f ++ "()" by simp [← String.toList_inj]]
    exact .called hf
  | cons a as => exact .applied hf (intercalate (by simp [separators]) (by simp) h)

end Composed

end MeasureSql.Sql
