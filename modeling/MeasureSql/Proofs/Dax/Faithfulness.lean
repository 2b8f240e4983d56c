import MeasureSql.Proofs.Dax.Obstacle

/-!
# Which written forms are read back

A text is parsed, and the tree is written again.  The second text is parsed into the same tree
exactly when the tree is written faithfully.

## Main results

* `isSourced_parse` — the trees of texts without `VAR`.
* `parse_display_of_isSourced` — which of these trees are read back from their written form.
* `parse_display_iff` — the same for the texts.
-/

namespace MeasureSql.Dax

/-- The tokens of a text that is accepted. -/
theorem tokens_parse {source : String} {tokens : List Token} (h : tokenize source = .ok tokens) :
    (parse source).tokens = tokens := by
  rw [parse, tokens_parseWith, h]
  rfl

/-- **The trees of texts without `VAR`.** -/
theorem isSourced_parse {source : String} (success : (parse source).failure = none)
    (unbound : ∀ t ∈ (parse source).tokens, t.kind ≠ .varWord) : (parse source).tree.IsSourced := by
  obtain ⟨tokens, htokens, derived⟩ := parse_iff_exists_tokens.mp ⟨success, rfl⟩
  have genuine := genuine_of_cuts (cuts_iff_tokenize.mpr ⟨tokens, htokens, rfl⟩)
  rw [tokens_parse htokens] at unbound
  refine derived.isSourced rfl fun t ht => ⟨genuine _ (List.mem_map_of_mem ht), ?_⟩
  exact unbound t ((List.takeWhile_prefix _).subset ht)

/-- What is read back has plain names, and no two minus signs stand side by side. -/
theorem plain_of_parse_display {e : Expr} (he : e.IsSourced) {ws : List Word}
    (cut : Cuts e.display.toList ws) (derived : Says ws (.expression e)) :
    e.everywhere Expr.plainNames = true ∧ e.everywhere Expr.singleMinuses = true := by
  have genuine : ∀ t ∈ ws.map Word.token, Genuine t.word :=
    List.forall_mem_map.mpr (genuine_of_cuts cut)
  have needed : e.cost ≤ weight (ws.map Word.token) := Derives.cost_le derived genuine
  have present : weight (ws.map Word.token) ≤ sensitives e.display := weight_le_of_cuts cut
  obtain ⟨written, plain⟩ := sensitives_display he
  have names := plain (needed.trans present)
  refine ⟨names, ?_⟩
  cases single : e.everywhere Expr.singleMinuses with
  | true => rfl
  | false =>
    have missing := weight_of_meetsComment (meetsComment_display he names single) cut
    omega

/-- **Which trees are read back from their written form**: exactly those that are written
faithfully. -/
theorem parse_display_of_isSourced {e : Expr} (he : e.IsSourced) :
    ((parse e.display).failure = none ∧ (parse e.display).tree = e) ↔ e.isFaithful = true := by
  rw [Expr.isFaithful_eq he]
  simp only [Bool.and_eq_true]
  constructor
  · intro readBack
    obtain ⟨ws, cut, derived⟩ := parse_iff_cuts.mp readBack
    obtain ⟨names, single⟩ := plain_of_parse_display he cut derived
    obtain rfl := cut.unique (writes_display he names single).cuts
    have bare : e.everywhere Expr.bareExponents = true := by
      cases bare : e.everywhere Expr.bareExponents with
      | true => rfl
      | false => exact absurd derived (not_derives_of_stuck (stuck_words he bare))
    have reread := parse_iff_cuts.mpr ⟨_, cut, (readsBack he names bare).expression⟩
    have same : e.reread = e := reread.2.symm.trans readBack.2
    exact ⟨⟨⟨names, single⟩, bare⟩, (reread_eq_self_iff he bare).mp same⟩
  · rintro ⟨⟨⟨names, single⟩, bare⟩, shape⟩
    have same := (reread_eq_self_iff he bare).mpr shape
    have derived := (readsBack he names bare).expression
    rw [same] at derived
    exact parse_iff_cuts.mpr ⟨_, (writes_display he names single).cuts, derived⟩

/-- **Written forms are read back exactly when they are faithful**: for every text without `VAR`
that is parsed without a failure, the written form of its tree is parsed without a failure and into
the same tree exactly when every node of the tree is written so that it can be read. -/
theorem parse_display_iff {source : String} (success : (parse source).failure = none)
    (unbound : ∀ t ∈ (parse source).tokens, t.kind ≠ .varWord) :
    ((parse (parse source).tree.display).failure = none ∧
      (parse (parse source).tree.display).tree = (parse source).tree) ↔
        (parse source).tree.isFaithful = true :=
  parse_display_of_isSourced (isSourced_parse success unbound)

/-- A text with a quoted name, a sign and a decimal is read back; one with a signed base is not. -/
theorem parse_display_iff_sums :
    let kept := "IF(NOT [Paid], -SUM('My Table'[Amount]) / 2.5, \"none\")"
    let lost := "(-1) ^ 2"
    ((parse kept).failure = none ∧ (parse lost).failure = none) ∧
      ((parse (parse kept).tree.display).failure = none ∧
        (parse (parse kept).tree.display).tree = (parse kept).tree) ∧
      ¬((parse (parse lost).tree.display).failure = none ∧
        (parse (parse lost).tree.display).tree = (parse lost).tree) := by
  intro kept lost
  have success : (parse kept).failure = none ∧ (parse lost).failure = none := by decide +kernel
  refine ⟨success, (parse_display_iff success.1 ?_).mpr ?_, fun readBack => ?_⟩
  · decide +kernel
  · decide +kernel
  · have faithful := (parse_display_iff success.2 (by decide +kernel)).mp readBack
    revert faithful
    decide +kernel

end MeasureSql.Dax
