import MeasureSql.Proofs.Dax.Lexeme
import MeasureSql.Proofs.Number.Plain

/-!
# The trees of source texts

Not every tree is the tree of a text.  Numbers have no sign and fit their type, a column has a name
without a closing bracket, and a call of `IF` with two or three arguments is a conditional.  Without
`VAR` there are no variables, and a definition is no expression.

## Main definitions

* `Expr.IsSourced` — the trees that texts without `VAR` can have.

## Main results

* `Derives.isSourced` — what the words of a text derive is such a tree.
-/

namespace MeasureSql.Dax

open Text

/-- The trees that texts without `VAR` can have. -/
inductive Expr.IsSourced : Expr → Prop
  | integer {n : Int} (nonnegative : 0 ≤ n) (fits : n < 2 ^ 63) : IsSourced (.literal (.integer n))
  | float {m : Nat} {e : Int} (canonical : Double.Canonical m e) :
      IsSourced (.literal (.float (.finite false m e)))
  | infinite : IsSourced (.literal (.float (.infinite false)))
  | text (body : String) : IsSourced (.literal (.string body))
  | boolean (b : Bool) : IsSourced (.literal (.boolean b))
  | blank : IsSourced (.literal .blank)
  | column {table : Option String} {name : String} (nonempty : name ≠ "")
      (plain : ']' ∉ name.toList) : IsSourced (.column ⟨table, name⟩)
  | table (name : String) : IsSourced (.table name)
  | call {name : String} {args : List Expr}
      (hname : ¬(asciiUpper name = "IF" ∧ (args.length = 2 ∨ args.length = 3)))
      (hargs : ∀ e ∈ args, IsSourced e) : IsSourced (.call name args)
  | binary {l r : Expr} (op : BinaryOp) (hl : IsSourced l) (hr : IsSourced r) :
      IsSourced (.binary l op r)
  | unary {e : Expr} (op : UnaryOp) (he : IsSourced e) : IsSourced (.unary op e)
  | ifThen {c t : Expr} (hc : IsSourced c) (ht : IsSourced t) : IsSourced (.cond c t none)
  | ifThenElse {c t e : Expr} (hc : IsSourced c) (ht : IsSourced t) (he : IsSourced e) :
      IsSourced (.cond c t (some e))

/-! ## Literals -/

theorem isSourced_ofDecimal (digits : Nat) (exponent : Int) :
    (Expr.literal (.float (.ofDecimal false digits exponent))).IsSourced := by
  rcases Double.ofDecimal_cases digits exponent with same | ⟨m, e, same, canonical⟩
  · rw [same]
    exact .infinite
  · rw [same]
    exact .float canonical

/-- A float begins with a digit, so it has no sign. -/
theorem isSourced_of_readFloatLiteral? {c : Char} {cs : List Char} (digit : c.isDigit = true)
    {value : Literal} (h : readFloatLiteral? (String.ofList (c :: cs)) = some value) :
    (Expr.literal value).IsSourced := by
  obtain ⟨x, read, rfl⟩ := Option.map_eq_some_iff.mp h
  obtain ⟨d, k, rfl⟩ := Double.exists_ofDecimal_of_digit digit read
  exact isSourced_ofDecimal d k

/-- A whole number begins with a digit, so it has no sign. -/
theorem isSourced_of_readIntegerLiteral? {c : Char} {cs : List Char} (digit : c.isDigit = true)
    {value : Literal} (h : readIntegerLiteral? (String.ofList (c :: cs)) = some value) :
    (Expr.literal value).IsSourced := by
  unfold readIntegerLiteral? at h
  dsimp only at h
  split at h
  · next n whole =>
    cases h
    rw [String.toList_ofList] at whole
    split at whole
    · cases whole
    · obtain ⟨nonnegative, fits⟩ := readInt64?_of_digit digit whole
      exact .integer nonnegative fits
  · exact isSourced_of_readFloatLiteral? digit h

theorem isSourced_of_isSpelled {t : Token} (genuine : Genuine t.word) {value : Literal}
    (h : IsSpelled t value) : (Expr.literal value).IsSourced := by
  cases h with
  | integer hkind hread =>
    obtain ⟨c, cs, lexeme, digit⟩ := genuine.number (.inl hkind)
    rw [show t.lexeme = _ from lexeme] at hread
    exact isSourced_of_readIntegerLiteral? digit hread
  | float hkind hread =>
    obtain ⟨c, cs, lexeme, digit⟩ := genuine.number (.inr hkind)
    rw [show t.lexeme = _ from lexeme] at hread
    exact isSourced_of_readFloatLiteral? digit hread
  | string hkind => exact .text _

theorem isSourced_of_isConstant {k : TokenKind} {value : Literal} (h : IsConstant k value) :
    (Expr.literal value).IsSourced := by
  cases h with
  | true => exact .boolean true
  | false => exact .boolean false
  | blank => exact .blank

/-- The name of a column in brackets. -/
theorem isSourced_column {t : Token} (genuine : Genuine t.word) (ht : t.kind = .columnRef)
    (table : Option String) : (Expr.column ⟨table, stripDelimiters t.lexeme⟩).IsSourced := by
  obtain ⟨name, nonempty, plain, lexeme⟩ := genuine.bracketed ht
  rw [show t.lexeme = _ from lexeme, stripDelimiters_between rfl rfl]
  exact .column nonempty plain

/-! ## Trees -/

theorem isSourced_of_isApplied {name : String} {args : List Expr} {e : Expr}
    (h : IsApplied name args e) (hargs : ∀ e ∈ args, e.IsSourced) : e.IsSourced := by
  cases h with
  | ifThen hname => exact .ifThen (hargs _ (by simp)) (hargs _ (by simp))
  | ifThenElse hname =>
    exact .ifThenElse (hargs _ (by simp)) (hargs _ (by simp)) (hargs _ (by simp))
  | call hname => exact .call hname hargs

/-- The trees of a phrase are those of texts. -/
def Phrase.IsSourced : Phrase → Prop
  | .expression e | .bindings e | .result e | .level _ e | .signed e | .power e | .call e
  | .primary e => e.IsSourced
  | .arguments es | .moreArguments es => ∀ e ∈ es, e.IsSourced
  | .callee _ => True

/-- **What the words of a text derive is the tree of a text**, when `VAR` is not among them. -/
theorem Derives.isSourced {scope : Scope} {seg : List Token} {phrase : Phrase}
    (h : Derives scope seg phrase) (unbound : scope = [])
    (genuine : ∀ t ∈ seg, Genuine t.word ∧ t.kind ≠ .varWord) : phrase.IsSourced := by
  induction h with
  | ofBindings h ih => exact ih unbound genuine
  | ofLevel h ih => exact ih unbound genuine
  | bind hvar hname heq hvalue hrest ihvalue ihrest =>
    exact absurd hvar (genuine _ List.mem_cons_self).2
  | moreBindings h ih => exact ih unbound genuine
  | returned hword h ih => exact ih unbound fun t ht => genuine t (List.mem_cons_of_mem _ ht)
  | join hl hop hr ihl ihr =>
    exact .binary _ (ihl unbound fun t ht => genuine t (by simp [ht]))
      (ihr unbound fun t ht => genuine t (by simp [ht]))
  | next h ih => exact ih unbound genuine
  | operand h ih => exact ih unbound genuine
  | negate ht h ih => exact .unary _ (ih unbound fun t ht => genuine t (by simp [ht]))
  | not ht hnext h ih => exact .unary _ (ih unbound fun t ht => genuine t (by simp [ht]))
  | unsigned h ih => exact ih unbound genuine
  | raise hbase ht hexponent ihbase ihexponent =>
    exact .binary _ (ihbase unbound fun t ht => genuine t (by simp [ht]))
      (ihexponent unbound fun t ht => genuine t (by simp [ht]))
  | unraised h ih => exact ih unbound genuine
  | apply hcallee hleft hargs hright happlied ihcallee ihargs =>
    exact isSourced_of_isApplied happlied (ihargs unbound fun t ht => genuine t (by simp [ht]))
  | unapplied h ih => exact ih unbound genuine
  | namedFunction ht => trivial
  | operatorWord ht => trivial
  | bareName h ih => trivial
  | noArguments => exact nofun
  | someArguments h hmore ih ihmore =>
    exact List.forall_mem_cons.mpr ⟨ih unbound fun t ht => genuine t (by simp [ht]),
      ihmore unbound fun t ht => genuine t (by simp [ht])⟩
  | noMore => exact nofun
  | more hcomma h hmore ih ihmore =>
    exact List.forall_mem_cons.mpr ⟨ih unbound fun t ht => genuine t (by simp [ht]),
      ihmore unbound fun t ht => genuine t (by simp [ht])⟩
  | constant h => exact isSourced_of_isConstant h
  | constantCall h hleft hright => exact isSourced_of_isConstant h
  | literal h => exact isSourced_of_isSpelled (genuine _ (by simp)).1 h
  | column ht => exact isSourced_column (genuine _ (by simp)).1 ht none
  | qualified ht hcolumn => exact isSourced_column (genuine _ (by simp)).1 hcolumn _
  | «variable» ht hbound =>
    rw [unbound] at hbound
    cases hbound
  | table ht hfree => exact .table _
  | group hleft h hright ih => exact ih unbound fun t ht => genuine t (by simp [ht])

end MeasureSql.Dax
