import MeasureSql.Proofs.Dax.Acceptance
import MeasureSql.Proofs.Render.Nodes

/-!
# Variables of source texts

A reference to a variable is read as one only where the variable is bound, and it carries what the
variable is bound to.  So the tree of a source text has no variable without a value, however deep in
the values of other variables.

## Main definitions

* `Expr.IsBound` — every variable has a value.

## Main results

* `Derives.isBound` — what is derived in a scope of bound values is bound.
* `isBound_parseSource` — the tree of a source text is bound.
-/

namespace MeasureSql.Dax

/-- Every variable of an expression has a value. -/
def Expr.IsBound (e : Expr) : Prop :=
  ∀ name, .variable name none ∉ e.nodes

namespace Expr

variable {e l r c a b : Expr} {args : List Expr}

theorem isBound_literal (value : Literal) : (literal value).IsBound := by
  simp [IsBound, nodes]

theorem isBound_column (ref : ColumnRef) : (column ref).IsBound := by
  simp [IsBound, nodes]

theorem isBound_table (name : String) : (table name).IsBound := by
  simp [IsBound, nodes]

theorem IsBound.call (name : String) (h : ∀ e ∈ args, e.IsBound) : (call name args).IsBound := by
  have all : ∀ name, .variable name none ∉ nodesAll args := by
    intro var
    induction args with
    | nil => simp [nodesAll]
    | cons e es ih =>
      obtain ⟨he, hes⟩ := List.forall_mem_cons.mp h
      simp [nodesAll, he var, ih hes]
  simpa [IsBound, nodes] using all

theorem IsBound.binary (op : BinaryOp) (hl : l.IsBound) (hr : r.IsBound) :
    (binary l op r).IsBound := by
  simp [IsBound, nodes, hl _, hr _]

theorem IsBound.unary (op : UnaryOp) (h : e.IsBound) : (unary op e).IsBound := by
  simp [IsBound, nodes, h _]

theorem IsBound.bound (name : String) (h : e.IsBound) : («variable» name (some e)).IsBound := by
  simp [IsBound, nodes, nodesOpt, h _]

theorem IsBound.ifThen (hc : c.IsBound) (ha : a.IsBound) : (cond c a none).IsBound := by
  simp [IsBound, nodes, nodesOpt, hc _, ha _]

theorem IsBound.ifThenElse (hc : c.IsBound) (ha : a.IsBound) (hb : b.IsBound) :
    (cond c a (some b)).IsBound := by
  simp [IsBound, nodes, nodesOpt, hc _, ha _, hb _]

theorem IsBound.measure (name : String) (format description : Option String) (h : e.IsBound) :
    (measure name e format description).IsBound := by
  simp [IsBound, nodes, h _]

end Expr

theorem isBound_of_isApplied {name : String} {args : List Expr} {e : Expr}
    (h : IsApplied name args e) (hargs : ∀ e ∈ args, e.IsBound) : e.IsBound := by
  cases h with
  | ifThen hname => exact .ifThen (hargs _ (by simp)) (hargs _ (by simp))
  | ifThenElse hname =>
    exact .ifThenElse (hargs _ (by simp)) (hargs _ (by simp)) (hargs _ (by simp))
  | call hname => exact .call name hargs

/-- The variables in a scope stand for bound expressions. -/
def Scope.IsBound (scope : Scope) : Prop :=
  ∀ binding ∈ scope, binding.2.IsBound

theorem Scope.IsBound.bind {scope : Scope} {value : Expr} (h : scope.IsBound) (name : String)
    (hvalue : value.IsBound) : (scope.bind name value).IsBound :=
  List.forall_mem_cons.mpr ⟨hvalue, h⟩

theorem Scope.IsBound.of_find? {scope : Scope} (h : scope.IsBound) {name : String} {bound : Expr}
    (hbound : scope.find? name = some bound) : bound.IsBound := by
  obtain ⟨before, after, rfl, -⟩ := List.lookup_eq_some_iff.mp hbound
  exact h (Text.asciiUpper name, bound) (by simp)

/-- The trees of a phrase are bound. -/
def Phrase.IsBound : Phrase → Prop
  | .expression e | .bindings e | .result e | .level _ e | .signed e | .power e | .call e
  | .primary e => e.IsBound
  | .arguments es | .moreArguments es => ∀ e ∈ es, e.IsBound
  | .callee _ => True

/-- **What is derived in a scope of bound values is bound.** -/
theorem Derives.isBound {scope : Scope} {seg : List Token} {phrase : Phrase}
    (h : Derives scope seg phrase) (bound : scope.IsBound) : phrase.IsBound := by
  induction h with
  | ofBindings h ih => exact ih bound
  | ofLevel h ih => exact ih bound
  | bind hvar hname heq hvalue hrest ihvalue ihrest =>
    exact ihrest (bound.bind _ (ihvalue bound))
  | moreBindings h ih => exact ih bound
  | returned hword h ih => exact ih bound
  | join hl hop hr ihl ihr => exact .binary _ (ihl bound) (ihr bound)
  | next h ih => exact ih bound
  | operand h ih => exact ih bound
  | negate ht h ih => exact .unary _ (ih bound)
  | not ht hnext h ih => exact .unary _ (ih bound)
  | unsigned h ih => exact ih bound
  | raise hbase ht hexponent ihbase ihexponent => exact .binary _ (ihbase bound) (ihexponent bound)
  | unraised h ih => exact ih bound
  | apply hcallee hleft hargs hright happlied ihcallee ihargs =>
    exact isBound_of_isApplied happlied (ihargs bound)
  | unapplied h ih => exact ih bound
  | namedFunction ht => trivial
  | operatorWord ht => trivial
  | bareName h ih => trivial
  | noArguments => exact nofun
  | someArguments h hmore ih ihmore => exact List.forall_mem_cons.mpr ⟨ih bound, ihmore bound⟩
  | noMore => exact nofun
  | more hcomma h hmore ih ihmore => exact List.forall_mem_cons.mpr ⟨ih bound, ihmore bound⟩
  | constant h => exact Expr.isBound_literal _
  | constantCall h hleft hright => exact Expr.isBound_literal _
  | literal h => exact Expr.isBound_literal _
  | column ht => exact Expr.isBound_column _
  | qualified ht hcolumn => exact Expr.isBound_column _
  | «variable» ht hbound => exact .bound _ (bound.of_find? hbound)
  | table ht hfree => exact Expr.isBound_table _
  | group hleft h hright ih => exact ih bound

/-! ## Source texts -/

/-- What is read off the front of the tokens of a text is bound. -/
theorem isBound_parseExpr {stop : Position} {fuel : Nat} {ts rest : List Token} {e : Expr}
    (hts : Spelled ts) (h : parseExpr stop fuel [] ts = .ok (e, rest)) : e.IsBound := by
  obtain ⟨seg, -, derived⟩ := (sound stop fuel).expr hts h
  exact derived.isBound (fun binding hbinding => nomatch hbinding)

theorem isBound_parseExpression {s : TokenStream} (hs : Spelled s.body) {e : Expr}
    {rest : List Token} (h : s.parseExpression = .ok (e, rest)) : e.IsBound :=
  isBound_parseExpr hs h

theorem isBound_parseMeasure {s : TokenStream} (hs : Spelled s.body) {e : Expr}
    {rest : List Token} (h : s.parseMeasure = .ok (e, rest)) : e.IsBound := by
  unfold TokenStream.parseMeasure at h
  split at h
  · next name ts hbody =>
    split at h
    · split at h
      · next eq ts =>
        split at h
        · obtain ⟨⟨body, rest'⟩, hread, hok⟩ := bind_eq_ok h
          cases hok
          rw [hbody] at hs
          exact (isBound_parseExpr hs.tail.tail hread).measure _ _ _
        · cases h
      · cases h
    · cases h
  · cases h

/-- A text is bound from any starting point that reads bound trees. -/
theorem isBound_parseWith {start : TokenStream → Except ParseError (Expr × List Token)}
    (hstart : ∀ s, Spelled s.body → ∀ e rest, start s = .ok (e, rest) → e.IsBound)
    (source : String) : (parseWith start source).tree.IsBound := by
  unfold parseWith
  split
  · exact Expr.isBound_literal _
  · next tokens htokens =>
    have spelled : Spelled (TokenStream.ofTokens tokens).body := by
      rw [body_ofTokens]
      exact fun t ht => spelled_tokenize htokens t ((List.takeWhile_prefix _).subset ht)
    split
    · exact Expr.isBound_literal _
    · next tree hread => exact hstart _ spelled _ _ hread
    · next tree t rest hread => exact hstart _ spelled _ _ hread

/-- **The tree of a source text is bound.** -/
theorem isBound_parseSource (source : String) : (parseSource source).tree.IsBound := by
  unfold parseSource
  dsimp only
  split
  · exact isBound_parseWith (fun _ hs _ _ h => isBound_parseMeasure hs h) source
  · exact isBound_parseWith (fun _ hs _ _ h => isBound_parseExpression hs h) source

end MeasureSql.Dax
