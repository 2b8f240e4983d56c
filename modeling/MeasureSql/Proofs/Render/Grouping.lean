import MeasureSql.Proofs.Render.Written

/-!
# Which formulas keep their grouping

Parentheses are set by the strengths of operators in the expression language, and only around binary
operations.  SQL has other levels: equality and order are on one level, and a negation reaches as
far as the comparisons after it.  So there are two ways in which the grouping of a formula is lost:
an equality whose right operand is an order, and an operator that comes after a negation and binds
more tightly than it.  In all other formulas it is kept.

## Main definitions

* `Dax.Expr.leadLevel`, `Dax.Expr.trailLevel` — how tightly a written formula binds on either side.
* `Dax.Expr.keepsGrouping` — is none of the two ways met?

## Main results

* `Rendering.ordered_written` — the written tree is ordered exactly when the grouping is kept.
* `Rendering.readText_renderExpr` — a formula is read as it is meant exactly when its grouping is
  kept and the names of its columns are operands.
-/

namespace MeasureSql

open Dax Sql.Reading Rendering

/-! ## Strengths and levels -/

/-- The level in SQL of the operators of a strength. -/
def levelOf (strength : Nat) : Nat :=
  if strength ≤ 2 then strength + 1 else if strength ≤ 4 then comparisonLevel else strength + 1

theorem levelOf_mono {m n : Nat} (h : m ≤ n) : levelOf m ≤ levelOf n := by
  unfold levelOf comparisonLevel
  split <;> split <;> (try split) <;> (try split) <;> omega

/-- Only equality and order share a level. -/
theorem levelOf_lt_iff {m n : Nat} (h : m < n) : levelOf m < levelOf n ↔ ¬(m = 3 ∧ n = 4) := by
  unfold levelOf comparisonLevel
  split <;> split <;> (try split) <;> (try split) <;> omega

theorem level_sqlOp {op : BinaryOp} (hpower : op ≠ .power) (hconcat : op ≠ .concat) :
    (sqlOp op).level = levelOf op.strength := by
  cases op with
  | power => exact absurd rfl hpower
  | concat => exact absurd rfl hconcat
  | _ => rfl

theorem strength_le (op : BinaryOp) : op.strength ≤ 7 := by
  cases op <;> decide

theorem levelOf_lt_atomLevel {n : Nat} (h : n ≤ 7) : levelOf n < atomLevel := by
  unfold levelOf comparisonLevel atomLevel
  split <;> (try split) <;> omega

namespace Dax.Expr

/-! ## The two sides of a formula -/

/-- Does a formula, as it is written, end in the operand of a negation? -/
def endsInNot : Expr → Bool
  | .unary .not _ => true
  | .binary l op r =>
    !asksForValue l op r && op != .power && !needsParens r op.strength true && r.endsInNot
  | _ => false

/-- The level of the operator on top of a formula, if it stands between two operands. -/
def infixLevel : Expr → Nat
  | .binary l op r =>
    if asksForValue l op r || op == .power then atomLevel else (sqlOp op).level
  | _ => atomLevel

/-- How tightly a formula binds what stands before it. -/
def leadLevel : Expr → Nat
  | .binary l op r =>
    if asksForValue l op r then comparisonLevel else (Expr.binary l op r).infixLevel
  | _ => atomLevel

/-- How tightly a formula binds what stands after it. -/
def trailLevel (e : Expr) : Nat :=
  if e.endsInNot then min notLevel e.infixLevel else e.infixLevel

/-- Would an operator of some strength after the formula belong to a negation in it? -/
def entersNot (e : Expr) (parent : Nat) : Bool :=
  e.endsInNot && !needsParens e parent false

/-- Is the operation an order? -/
def isOrder : Expr → Bool
  | .binary _ op _ => op.strength == BinaryOp.lessThan.strength
  | _ => false

/-- **Is the grouping of a formula kept?**  No equality has an order as its right operand, and
nothing that binds more tightly than a negation comes after one. -/
def keepsGrouping : Expr → Bool
  | .unary _ e => e.keepsGrouping
  | .binary l op r =>
    if asksForValue l op r then
      if r.isBlank then l.keepsGrouping && !l.entersNot BinaryOp.lessThan.strength
      else r.keepsGrouping && !r.entersNot BinaryOp.lessThan.strength
    else l.keepsGrouping && r.keepsGrouping && (op == .power
      || (op == .and || op == .or || !l.entersNot op.strength)
        && !((op == .equals || op == .notEquals) && r.isOrder))
  | _ => true

/-- An operation that asks for a value is an equality. -/
theorem strength_of_asksForValue {l r : Expr} {op : BinaryOp} (h : asksForValue l op r = true) :
    op.strength = 3 := by
  simp only [asksForValue, Bool.and_eq_true, Bool.or_eq_true, beq_iff_eq] at h
  rcases h.1 with rfl | rfl
  · rfl
  · rfl

theorem isOrder_binary {l r : Expr} {op : BinaryOp} :
    (Expr.binary l op r).isOrder = true ↔ op.strength = 4 := by
  simp only [isOrder, beq_iff_eq]
  exact Iff.rfl

/-- What stands without parentheses binds at least as tightly as the operator beside it. -/
theorem levelOf_le_leadLevel {e : Expr} (he : e.IsFormula) {parent : Nat} {onRight : Bool}
    (hparent : parent ≤ 7) (h : needsParens e parent onRight = false) :
    levelOf parent ≤ e.leadLevel := by
  have hatom := Nat.le_of_lt (levelOf_lt_atomLevel hparent)
  cases he with
  | binary op hop hl hr =>
    simp only [needsParens, Bool.or_eq_false_iff, decide_eq_false_iff_not] at h
    have hle := levelOf_mono (Nat.not_lt.mp h.1)
    simp only [leadLevel, infixLevel]
    split
    · next hasks =>
      rw [strength_of_asksForValue hasks] at hle
      exact hle
    · split
      · exact hatom
      · next hplain =>
        simp only [Bool.or_eq_true, beq_iff_eq, not_or] at hplain
        rw [level_sqlOp hplain.2 hop]
        exact hle
  | _ => exact hatom

theorem leadLevel_le_infixLevel (e : Expr) : e.leadLevel ≤ e.infixLevel := by
  cases e with
  | binary l op r =>
    simp only [leadLevel]
    split
    · next hasks =>
      simp only [infixLevel, hasks, Bool.true_or, if_true]
      decide
    · exact Nat.le_refl _
  | _ => exact Nat.le_refl _

end Dax.Expr

namespace Rendering

variable {t : Target} {rows : List String}

/-- Nothing takes a literal apart. -/
theorem levels_literalTree (d : Dialect) (value : Literal) :
    (literalTree d value).leftLevel = atomLevel ∧
      signLevel ≤ (literalTree d value).rightLevel := by
  have hatom : signLevel ≤ atomLevel := by decide
  obtain ⟨text, h | h⟩ := exists_literalTree d value
  · rw [h]
    exact ⟨rfl, hatom⟩
  · rw [h]
    exact ⟨rfl, Nat.le_min.mpr ⟨Nat.le_refl _, hatom⟩⟩

/-- Nothing takes apart what stands after a sign or a negation. -/
theorem levels_wrapped {e : Expr} (he : e.IsFormula) (text : String) :
    (wrapped (signNeedsParens e text) (written t rows e)).leftLevel = atomLevel ∧
      signLevel ≤ (wrapped (signNeedsParens e text) (written t rows e)).rightLevel := by
  have hatom : signLevel ≤ atomLevel := by decide
  cases hneeds : signNeedsParens e text with
  | true => exact ⟨rfl, hatom⟩
  | false =>
    cases he with
    | literal value => exact levels_literalTree _ _
    | column ref => exact ⟨rfl, hatom⟩
    | unary op he => cases hneeds
    | binary op hop hl hr => cases hneeds

/-- **How tightly a written formula binds what stands before it.** -/
theorem leftLevel_written {e : Expr} (he : e.IsFormula) :
    (written t rows e).leftLevel = e.leadLevel := by
  have hoperand : ∀ {e : Expr} (parent : Nat) {onRight : Bool}, e.IsFormula → parent ≤ 7 →
      (written t rows e).leftLevel = e.leadLevel →
      levelOf parent ≤ (wrapped (needsParens e parent onRight) (written t rows e)).leftLevel := by
    intro e parent onRight he hparent ih
    cases hneeds : needsParens e parent onRight with
    | true => exact Nat.le_of_lt (levelOf_lt_atomLevel hparent)
    | false => exact ih ▸ Expr.levelOf_le_leadLevel he hparent hneeds
  induction he with
  | literal value => exact (levels_literalTree _ _).1
  | column ref => rfl
  | unary op he ih => cases op <;> rfl
  | @binary l r op hop hl hr ihl ihr =>
    simp only [written, Expr.leadLevel]
    split
    · refine Nat.min_eq_left ?_
      split
      · exact hoperand 4 hl (by decide) ihl
      · exact hoperand 4 hr (by decide) ihr
    · next hasks =>
      simp only [Expr.infixLevel, hasks, Bool.false_or, beq_iff_eq]
      split
      · next hpower =>
        rw [operation, if_pos hpower]
        rfl
      · next hpower =>
        rw [operation, if_neg hpower]
        refine Nat.min_eq_left ?_
        rw [level_sqlOp hpower hop]
        exact hoperand op.strength hl (strength_le op) ihl

/-- **How tightly a written formula binds what stands after it.**  Only operators between two
operands are asked for, all of which are below the sign. -/
theorem le_rightLevel_written {e : Expr} (he : e.IsFormula) {k : Nat} (hk : k < signLevel) :
    k ≤ (written t rows e).rightLevel ↔ k ≤ e.trailLevel := by
  have hatom : k ≤ atomLevel := Nat.le_of_lt (Nat.lt_succ_of_lt hk)
  induction he with
  | literal value =>
    exact iff_of_true (Nat.le_trans (Nat.le_of_lt hk) (levels_literalTree _ _).2) hatom
  | column ref => exact iff_of_true hatom hatom
  | @unary op e he ih =>
    have hright : signLevel ≤
        (wrapped (signNeedsParens e (written t rows e).text) (written t rows e)).rightLevel :=
      (levels_wrapped he _).2
    cases op with
    | negate =>
      exact iff_of_true (Nat.le_min.mpr ⟨Nat.le_of_lt hk, Nat.le_trans (Nat.le_of_lt hk) hright⟩)
        hatom
    | not =>
      show k ≤ min notLevel _ ↔ k ≤ min notLevel atomLevel
      rw [Nat.min_eq_left (Nat.le_trans (by decide) hright), Nat.min_eq_left (by decide)]
  | @binary l r op hop hl hr ihl ihr =>
    by_cases hasks : Expr.asksForValue l op r = true
    · simp [written, Expr.trailLevel, Expr.endsInNot, Expr.infixLevel, hasks, Tree.rightLevel]
    · by_cases hpower : op = .power
      · subst hpower
        exact iff_of_true hatom (by simp [Expr.trailLevel, Expr.endsInNot, Expr.infixLevel, hatom])
      · have hlevel : (Expr.binary l op r).infixLevel = (sqlOp op).level := by
          simp [Expr.infixLevel, hasks, hpower]
        have hwritten : written t rows (.binary l op r) =
            .binary (wrapped (needsParens l op.strength false) (written t rows l)) (sqlOp op)
              (wrapped (needsParens r op.strength true) (written t rows r)) := by
          simp [written, hasks, hpower, operation]
        rw [hwritten, Tree.rightLevel, Nat.le_min, Expr.trailLevel, hlevel]
        cases hneeds : needsParens r op.strength true with
        | true => simp [Expr.endsInNot, hneeds, wrapped, Tree.rightLevel, hatom]
        | false =>
          have hends : (Expr.binary l op r).endsInNot = r.endsInNot := by
            simp [Expr.endsInNot, hasks, hpower, hneeds]
          have hbinds : (sqlOp op).level ≤ r.infixLevel := by
            rw [level_sqlOp hpower hop]
            exact Nat.le_trans (Expr.levelOf_le_leadLevel hr (strength_le op) hneeds)
              r.leadLevel_le_infixLevel
          have hright : k ≤ (wrapped false (written t rows r)).rightLevel ↔ k ≤ r.trailLevel := ihr
          rw [hright, hends, Expr.trailLevel]
          split
          · omega
          · omega

/-- An operand on the left keeps its place when the operator does not enter a negation in it. -/
theorem levelOf_le_operand {e : Expr} (he : e.IsFormula) (parent : Nat) (hparent : parent < 7) :
    levelOf parent ≤ (wrapped (needsParens e parent false) (written t rows e)).rightLevel ↔
      levelOf parent ≤ notLevel ∨ e.entersNot parent = false := by
  cases hneeds : needsParens e parent false with
  | true =>
    refine iff_of_true (Nat.le_of_lt (levelOf_lt_atomLevel (Nat.le_of_lt hparent))) (.inr ?_)
    simp [Expr.entersNot, hneeds]
  | false =>
    have hbinds : levelOf parent ≤ e.infixLevel :=
      Nat.le_trans (Expr.levelOf_le_leadLevel he (Nat.le_of_lt hparent) hneeds)
        e.leadLevel_le_infixLevel
    have hright : levelOf parent ≤ (wrapped false (written t rows e)).rightLevel ↔
        levelOf parent ≤ e.trailLevel :=
      le_rightLevel_written he (Nat.lt_of_le_of_lt (levelOf_mono (Nat.le_of_lt_succ hparent))
        (by decide))
    rw [hright, Expr.trailLevel, Expr.entersNot, hneeds]
    cases e.endsInNot with
    | true =>
      rw [if_pos rfl, Nat.le_min]
      simp [hbinds]
    | false => simp [hbinds]

theorem levelOf_le_notLevel_iff {op : BinaryOp} :
    levelOf op.strength ≤ notLevel ↔ op = .and ∨ op = .or := by
  cases op <;> simp [levelOf, BinaryOp.strength, notLevel, comparisonLevel]

/-- An operand on the right keeps its place unless it is the order of an equality. -/
theorem levelOf_lt_operand {e : Expr} (he : e.IsFormula) (op : BinaryOp) :
    levelOf op.strength <
        (wrapped (needsParens e op.strength true) (written t rows e)).leftLevel ↔
      ¬((op = .equals ∨ op = .notEquals) ∧ e.isOrder = true) := by
  have hequality : op = .equals ∨ op = .notEquals ↔ op.strength = 3 := by
    cases op <;> simp [BinaryOp.strength]
  have hatom := levelOf_lt_atomLevel (strength_le op)
  have hplain : needsParens e op.strength true = false → e.leadLevel = atomLevel →
      e.isOrder = false → (levelOf op.strength <
        (wrapped (needsParens e op.strength true) (written t rows e)).leftLevel ↔
      ¬(op.strength = 3 ∧ e.isOrder = true)) := by
    intro hneeds hlead horder
    have hleft : (wrapped false (written t rows e)).leftLevel = e.leadLevel := leftLevel_written he
    rw [hneeds, hleft, hlead, horder]
    exact iff_of_true hatom (by simp)
  rw [hequality]
  cases he with
  | literal value => exact hplain rfl rfl rfl
  | column ref => exact hplain rfl rfl rfl
  | unary op' he => exact hplain rfl rfl rfl
  | @binary l r op' hop hl hr =>
    rw [Expr.isOrder_binary]
    cases hneeds : needsParens (.binary l op' r) op.strength true with
    | true =>
      refine iff_of_true hatom ?_
      simp only [needsParens, Bool.true_and, Bool.or_eq_true, decide_eq_true_eq,
        beq_iff_eq] at hneeds
      omega
    | false =>
      have hleft : (wrapped false (written t rows (.binary l op' r))).leftLevel =
        (Expr.binary l op' r).leadLevel := leftLevel_written (.binary op' hop hl hr)
      simp only [needsParens, Bool.true_and, Bool.or_eq_false_iff, decide_eq_false_iff_not,
        beq_eq_false_iff_ne] at hneeds
      have hlt : op.strength < op'.strength := by omega
      rw [hleft, Expr.leadLevel, Expr.infixLevel, ← levelOf_lt_iff hlt]
      split
      · next hasks =>
        rw [Expr.strength_of_asksForValue hasks]
        rfl
      · next hasks =>
        by_cases hpower : op' = .power
        · subst hpower
          refine iff_of_true (by simpa [hasks] using hatom) ((levelOf_lt_iff hlt).mpr ?_)
          simp [BinaryOp.strength]
        · simp [hasks, hpower, level_sqlOp hpower hop]

@[simp] theorem ordered_wrapped (needed : Bool) (e : Tree) :
    (wrapped needed e).Ordered ↔ e.Ordered := by
  cases needed <;> exact Iff.rfl

theorem ordered_literalTree (d : Dialect) (value : Literal) : (literalTree d value).Ordered := by
  obtain ⟨text, h | h⟩ := exists_literalTree d value
  · rw [h]
    exact trivial
  · rw [h]
    exact ⟨trivial, Nat.lt_succ_self _⟩

/-- Every formula may stand in a list. -/
theorem comma_lt_leftLevel {e : Expr} (he : e.IsFormula) :
    Op.comma.level < (written t rows e).leftLevel := by
  have hneeds : needsParens e 1 false = false := by
    unfold needsParens
    split
    · next l op r => cases op <;> rfl
    · rfl
  have hle := Expr.levelOf_le_leadLevel he (by decide) hneeds
  rw [leftLevel_written he]
  exact hle

/-- **The written tree is ordered exactly when the grouping is kept.** -/
theorem ordered_written {e : Expr} (he : e.IsFormula) :
    (written t rows e).Ordered ↔ e.keepsGrouping = true := by
  have hnull : ∀ {e : Expr}, e.IsFormula →
      (comparisonLevel ≤ (wrapped (needsParens e BinaryOp.lessThan.strength false)
        (written t rows e)).rightLevel ↔ e.entersNot BinaryOp.lessThan.strength = false) := by
    intro e he
    refine (levelOf_le_operand he 4 (by decide)).trans (or_iff_right ?_)
    decide
  induction he with
  | literal value => exact iff_of_true (ordered_literalTree _ _) rfl
  | column ref => exact iff_of_true trivial rfl
  | @unary op e he ih =>
    have hleft : (wrapped (signNeedsParens e (written t rows e).text)
        (written t rows e)).leftLevel = atomLevel := (levels_wrapped he _).1
    cases op with
    | negate =>
      simp only [written, Tree.Ordered, ordered_wrapped, hleft, ih, Expr.keepsGrouping]
      exact and_iff_left (by decide)
    | not =>
      simp only [written, Tree.Ordered, ordered_wrapped, hleft, ih, Expr.keepsGrouping]
      exact and_iff_left (by decide)
  | @binary l r op hop hl hr ihl ihr =>
    simp only [written, Expr.keepsGrouping]
    split
    · split
      · simp only [Tree.Ordered, ordered_wrapped, ihl, hnull hl, Bool.and_eq_true,
          Bool.not_eq_true']
      · simp only [Tree.Ordered, ordered_wrapped, ihr, hnull hr, Bool.and_eq_true,
          Bool.not_eq_true']
    · by_cases hpower : op = .power
      · have hpos : Op.comma.level ≤ (written t rows l).rightLevel := Tree.rightLevel_pos _
        simp [hpower, operation, Tree.Ordered, ihl, ihr, hpos, comma_lt_leftLevel hr]
      · have hlevel := level_sqlOp hpower hop
        have hstrength : op.strength < 7 := by
          cases op with
          | power => exact absurd rfl hpower
          | _ => decide
        simp only [hpower, if_false, operation, Tree.Ordered, ordered_wrapped, ihl, ihr, hlevel,
          levelOf_le_operand hl _ hstrength, levelOf_le_notLevel_iff, levelOf_lt_operand hr]
        simp only [hpower, Bool.and_eq_true, Bool.or_eq_true, beq_iff_eq, Bool.not_eq_true',
          Bool.and_eq_false_imp, false_or, and_assoc, or_assoc, not_and, Bool.not_eq_true]

/-! ## Reading what was rendered -/

/-- The columns of a formula are operands of its tree. -/
theorem mem_leaves_intended {e : Expr} (he : e.IsFormula) {ref : ColumnRef}
    (h : ref ∈ e.columns) : (columnAt t rows ref).sql ∈ (intended t rows e).leaves := by
  induction he with
  | literal value => cases h
  | column ref' =>
    rw [List.mem_singleton.mp h]
    exact List.mem_cons_self
  | unary op he ih => cases op <;> exact ih h
  | @binary l r op hop hl hr ihl ihr =>
    -- What a value is not asked for is no value, which has no columns.
    have hblank : ∀ {e : Expr}, e.isBlank = true → ref ∉ e.columns := by
      intro e hblank hmem
      unfold Expr.isBlank at hblank
      split at hblank
      · cases hmem
      · cases hblank
    rw [Expr.columns, List.mem_append] at h
    simp only [intended]
    split
    · next hasks =>
      simp only [Expr.asksForValue, Bool.and_eq_true, Bool.or_eq_true] at hasks
      split
      · next hr => exact ihl (h.resolve_right (hblank hr))
      · next hr => exact ihr (h.resolve_left (hblank (hasks.2.resolve_right hr)))
    · rw [operation]
      split
      · simp only [Tree.leaves, List.mem_cons, List.mem_append]
        exact .inr (h.imp ihl ihr)
      · exact List.mem_append.mpr (h.imp ihl ihr)

/-- **A formula is read as it is meant** exactly when its grouping is kept and the names of its
columns are operands. -/
theorem readText_renderExpr (t : Target) (s : RenderState) {e : Expr} (he : e.IsFormula) :
    ∃ sql s', renderExpr t e s = (.ok sql, s') ∧
      (readText sql = some (intended t s.rowTables e) ↔
        (∀ ref ∈ e.columns, isOperand (columnAt t s.rowTables ref).sql = true) ∧
          e.keepsGrouping = true) := by
  obtain ⟨s', hs', -⟩ := gives_renderLevels (t := t) he (Nat.le_refl e.height) s rfl
  refine ⟨_, s', hs', ?_⟩
  have hordered : (written t s.rowTables e).Ordered ↔ e.keepsGrouping = true := ordered_written he
  rw [← hordered, ← bare_written he]
  constructor
  · intro hread
    have hcolumns : ∀ ref ∈ e.columns, isOperand (columnAt t s.rowTables ref).sql = true := by
      intro ref href
      refine isOperand_of_readText hread ?_
      rw [bare_written he]
      exact mem_leaves_intended he href
    exact ⟨hcolumns, (readText_text_iff (plain_written he hcolumns)).mp hread⟩
  · rintro ⟨hcolumns, htree⟩
    exact (readText_text_iff (plain_written he hcolumns)).mpr htree

/-- A product with a sum is read as it is meant, and an equality with an order is not: it is written
`1 = 2 < 3`, where the equality comes first. -/
theorem readText_product_and_equality :
    let t : Target := ⟨none, .empty, .snowflake⟩
    let product : Expr := .binary (.column ⟨some "Sales", "Amount"⟩) .multiply
      (.binary (.literal (.integer 1)) .add (.literal (.integer 2)))
    let equality : Expr := .binary (.literal (.integer 1)) .equals
      (.binary (.literal (.integer 2)) .lessThan (.literal (.integer 3)))
    (∃ sql s, renderExpr t product {} = (.ok sql, s) ∧
      readText sql = some (intended t [] product)) ∧
      ∃ sql s, renderExpr t equality {} = (.ok sql, s) ∧
        readText sql ≠ some (intended t [] equality) := by
  intro t product equality
  have hnumber : ∀ n : Int, (Expr.literal (.integer n)).IsFormula := fun _ => .literal _
  have hproduct : product.IsFormula :=
    .binary _ (by decide) (.column _) (.binary _ (by decide) (hnumber 1) (hnumber 2))
  have hequality : equality.IsFormula :=
    .binary _ (by decide) (hnumber 1) (.binary _ (by decide) (hnumber 2) (hnumber 3))
  constructor
  · obtain ⟨sql, s, hsql, hread⟩ := readText_renderExpr t {} hproduct
    refine ⟨sql, s, hsql, hread.mpr ⟨?_, rfl⟩⟩
    decide +kernel
  · obtain ⟨sql, s, hsql, hread⟩ := readText_renderExpr t {} hequality
    exact ⟨sql, s, hsql, fun heq => absurd (hread.mp heq).2 (by decide)⟩

end Rendering

end MeasureSql
