import Mathlib.Order.MinMax
import MeasureSql.Proofs.Render.Grouping
import MeasureSql.Proofs.Render.Transparency

/-!
# Parentheses that group nothing

The parentheses in which the SQL of an expression differs from that of the expression without its
variables are redundant in a formula: both texts are read as the same tree, as long as the one
without variables is read as it is meant.  More parentheses than needed take nothing apart.  Fewer
stand in one place only, around a negation behind a variable, and there they matter after a minus
sign, which would bind more tightly.

## Main definitions

* `Expr.IsVarFormula` — formulas with variables.
* `Expr.clearSigns` — no minus sign stands before a variable for a negation.
* `drawn` — the tree of such a formula as it is written.
* `SignedLevels` — how tightly the operand of a sign binds.
* `Tighter` — a tree that binds as tightly as another one, and is ordered.

## Main results

* `tighter_drawn` — what is written with variables binds as tightly as what is written without.
* `readText_renderExpr_inlined` — with its variables and without, a formula is read alike.
* `renderExpr_transparent` — variables are transparent where they hide nothing.
-/

namespace MeasureSql

open Dax Sql.Reading

namespace Dax.Expr

/-- The expressions that are built from columns and literals by operators and variables. -/
inductive IsVarFormula : Expr → Prop
  | literal (value : Literal) : IsVarFormula (.literal value)
  | column (ref : ColumnRef) : IsVarFormula (.column ref)
  | unary (op : UnaryOp) {e : Expr} (he : IsVarFormula e) : IsVarFormula (.unary op e)
  | binary {l r : Expr} (op : BinaryOp) (hop : op ≠ .concat) (hl : IsVarFormula l)
      (hr : IsVarFormula r) : IsVarFormula (.binary l op r)
  | «variable» (name : String) {value : Expr} (hvalue : IsVarFormula value) :
      IsVarFormula (.variable name (some value))

theorem IsVarFormula.inlined {e : Expr} (he : e.IsVarFormula) : e.inlined.IsFormula := by
  induction he with
  | literal value => exact .literal value
  | column ref => exact .column ref
  | unary op he ih => exact .unary op ih
  | binary op hop hl hr ihl ihr => exact .binary op hop ihl ihr
  | «variable» name hvalue ih => exact ih

/-- Is it a negation? -/
def isNegation : Expr → Bool
  | .unary .not _ => true
  | _ => false

/-- A negation after a minus sign is in sight. -/
def clearSigns : Expr → Bool
  | .unary .negate e => e.shows isNegation && e.clearSigns
  | .unary .not e => e.clearSigns
  | .binary l _ r => l.clearSigns && r.clearSigns
  | .variable _ (some value) => value.clearSigns
  | _ => true

end Dax.Expr

namespace Rendering

/-! ## Trees -/

/-- **The tree of a formula with variables as it is written.** -/
def drawn (t : Target) (rows : List String) : Expr → Tree
  | .literal value => literalTree t.dialect value
  | .column ref => .operand (columnAt t rows ref).sql
  | .unary .negate e => .neg (wrapped (signNeedsParens e (drawn t rows e).text) (drawn t rows e))
  | .unary .not e => .not (wrapped (signNeedsParens e (drawn t rows e).text) (drawn t rows e))
  | .binary l op r => writtenOperation l op r (drawn t rows l) (drawn t rows r)
  | .variable _ (some value) => wrapped value.isBinary (drawn t rows value)
  | _ => .operand ""

section Drawn

variable {t : Target} {rows : List String}

theorem drawn_unary (op : UnaryOp) (e : Expr) :
    drawn t rows (.unary op e) = writtenSign op e (drawn t rows e) := by
  cases op <;> rfl

/-- **Rendering a formula with variables gives the text of its tree.** -/
theorem gives_drawn {e : Expr} (he : e.IsVarFormula) :
    Gives rows (renderExpr t e) (drawn t rows e).text := by
  induction he with
  | literal value =>
    rw [renderExpr_eq, drawn, text_literalTree]
    exact .pure _
  | column ref =>
    rw [renderExpr_eq]
    exact (gives_resolveColumn ref).bind (.pure _)
  | unary op he ih =>
    rw [renderExpr_eq, drawn_unary]
    exact gives_renderUnary op ih
  | @binary l r op hop hl hr ihl ihr =>
    rw [renderExpr_eq, drawn]
    exact gives_renderBinary hop ihl ihr
  | «variable» name hvalue ih =>
    rw [renderExpr_eq, drawn, text_wrapped]
    exact ih.bind (.pure _)

/-- What a comparison asks for is the same without variables. -/
theorem asksForValue_inlined {l r : Expr} {op : BinaryOp} (h : clearComparison l op r = true) :
    Expr.asksForValue l.inlined op r.inlined = Expr.asksForValue l op r := by
  rw [clearComparison, comparesValues] at h
  unfold Expr.asksForValue
  cases hop : (op == .equals || op == .notEquals) with
  | false => rfl
  | true =>
    rw [hop, Bool.not_true, Bool.false_or, Bool.and_eq_true] at h
    rw [Expr.eq_of_shows h.1, Expr.eq_of_shows h.2]

theorem isBlank_inlined_of_asksForValue {l r : Expr} {op : BinaryOp}
    (h : clearComparison l op r = true) (hasks : Expr.asksForValue l op r = true) :
    r.inlined.isBlank = r.isBlank := by
  rw [clearComparison, comparesValues] at h
  rw [Expr.asksForValue, Bool.and_eq_true] at hasks
  rw [hasks.1, Bool.not_true, Bool.false_or, Bool.and_eq_true] at h
  exact Expr.eq_of_shows h.2

/-- **What is written with variables differs from what is meant by parentheses only.** -/
theorem bare_drawn {e : Expr} (he : e.IsVarFormula) (h : e.clear t = true) :
    (drawn t rows e).bare = intended t rows e.inlined := by
  induction he with
  | literal value => exact bare_literalTree _ _
  | column ref => rfl
  | unary op he ih =>
    rw [Expr.clear] at h
    cases op with
    | negate => simp only [drawn, Tree.bare, bare_wrapped, ih h, Expr.inlined, intended]
    | not => simp only [drawn, Tree.bare, bare_wrapped, ih h, Expr.inlined, intended]
  | @binary l r op hop hl hr ihl ihr =>
    rw [Expr.clear, Bool.and_eq_true, Bool.and_eq_true] at h
    obtain ⟨⟨hcompare, hl⟩, hr⟩ := h
    simp only [drawn, writtenOperation, Expr.inlined, intended, asksForValue_inlined hcompare]
    split
    · next hasks =>
      rw [isBlank_inlined_of_asksForValue hcompare hasks]
      split
      · simp only [Tree.bare, bare_wrapped, ihl hl]
      · simp only [Tree.bare, bare_wrapped, ihr hr]
    · split
      · simp only [bare_operation, ihl hl, ihr hr]
      · simp only [bare_operation, bare_wrapped, ihl hl, ihr hr]
  | «variable» name hvalue ih =>
    rw [Expr.clear, Expr.clearOpt] at h
    rw [drawn, bare_wrapped, ih h, Expr.inlined]

/-- The tree can be written when the names of its columns can. -/
theorem plain_drawn {e : Expr} (he : e.IsVarFormula)
    (h : ∀ ref ∈ e.inlined.columns, isOperand (columnAt t rows ref).sql = true) :
    (drawn t rows e).Plain := by
  induction he with
  | literal value => exact plain_literalTree _ _
  | column ref => exact h ref List.mem_cons_self
  | unary op he ih =>
    rw [drawn_unary]
    exact plain_writtenSign (ih h) op
  | @binary l r op hop hl hr ihl ihr =>
    rw [Expr.inlined, Expr.columns] at h
    have hleft := ihl fun ref href => h ref (List.mem_append_left _ href)
    have hright := ihr fun ref href => h ref (List.mem_append_right _ href)
    exact plain_writtenOperation hleft hright
  | «variable» name hvalue ih => exact (plain_wrapped _ _).mpr (ih h)

/-! ## Levels -/

/-- A variable for a binary operation is written in parentheses. -/
theorem levels_drawn_of_hidden {e : Expr} (he : e.IsVarFormula) (hshape : e.isBinary = false)
    (hhidden : e.inlined.isBinary = true) :
    (drawn t rows e).leftLevel = atomLevel ∧ (drawn t rows e).rightLevel = atomLevel := by
  induction he with
  | literal value => cases hhidden
  | column ref => cases hhidden
  | unary op he ih => cases hhidden
  | binary op hop hl hr ihl ihr => cases hshape
  | @«variable» name value hvalue ih =>
    rw [drawn]
    cases hbinary : value.isBinary with
    | true => exact ⟨rfl, rfl⟩
    | false => exact ih hbinary hhidden

/-- **The operand of a sign or of a negation**: no operator before it takes it apart, and one after
it only by a negation that a variable hides. -/
structure SignedLevels (t : Target) (rows : List String) (e : Expr) (operand : Tree) : Prop where
  left : operand.leftLevel = atomLevel
  right : notLevel ≤ operand.rightLevel
  shown : e.shows Expr.isNegation = true → signLevel ≤ operand.rightLevel
  negation : e.isNegation = true → notLevel ≤ (drawn t rows e).rightLevel

section Signed

variable {e : Expr} {operand : Tree}

theorem SignedLevels.mk_of_not_isNegation (other : e.isNegation = false)
    (left : operand.leftLevel = atomLevel) (right : notLevel ≤ operand.rightLevel)
    (shown : e.shows Expr.isNegation = true → signLevel ≤ operand.rightLevel) :
    SignedLevels t rows e operand where
  left := left
  right := right
  shown := shown
  negation := by
    intro h
    rw [other] at h
    cases h

/-- Nothing takes parentheses or a name apart. -/
theorem SignedLevels.of_atom (other : e.isNegation = false) (left : operand.leftLevel = atomLevel)
    (right : operand.rightLevel = atomLevel) : SignedLevels t rows e operand := by
  refine .mk_of_not_isNegation other left ?_ fun _ => ?_
  · rw [right]
    decide
  · rw [right]
    decide

theorem signedLevels_drawn (he : e.IsVarFormula) :
    SignedLevels t rows e (wrapped (signNeedsParens e (drawn t rows e).text) (drawn t rows e)) := by
  induction he with
  | literal value =>
    cases signNeedsParens (.literal value) (drawn t rows (.literal value)).text with
    | true => exact .of_atom rfl rfl rfl
    | false =>
      have levels := levels_literalTree t.dialect value
      exact .mk_of_not_isNegation rfl levels.1 (Nat.le_trans (by decide) levels.2) fun _ => levels.2
  | column ref =>
    cases signNeedsParens (.column ref) (drawn t rows (.column ref)).text with
    | true => exact .of_atom rfl rfl rfl
    | false => exact .of_atom rfl rfl rfl
  | @unary op e he ih =>
    cases op with
    | negate => exact .of_atom rfl rfl rfl
    | not =>
      have enclosed : signLevel ≤ atomLevel := by decide
      exact ⟨rfl, Nat.le_trans (by decide) enclosed, fun _ => enclosed,
        fun _ => Nat.le_min.mpr ⟨Nat.le_refl _, ih.right⟩⟩
  | binary op hop hl hr ihl ihr => exact .of_atom rfl rfl rfl
  | @«variable» name value hvalue ih =>
    rw [drawn]
    cases hvalue with
    | literal value => exact .mk_of_not_isNegation rfl ih.left ih.right ih.shown
    | column ref => exact .mk_of_not_isNegation rfl ih.left ih.right ih.shown
    | «variable» name hvalue => exact .mk_of_not_isNegation rfl ih.left ih.right ih.shown
    | @binary l r op hop hl hr =>
      have held : wrapped (Expr.binary l op r).isBinary (drawn t rows (.binary l op r)) =
        .paren (drawn t rows (.binary l op r)) := rfl
      rw [held]
      cases signNeedsParens (.variable name (some (.binary l op r)))
        (Tree.paren (drawn t rows (.binary l op r))).text with
      | true => exact .of_atom rfl rfl rfl
      | false => exact .of_atom rfl rfl rfl
    | @unary op e he =>
      have held : wrapped (Expr.unary op e).isBinary (drawn t rows (.unary op e)) =
        drawn t rows (.unary op e) := rfl
      rw [held, signNeedsParens_eq]
      cases op with
      | negate =>
        -- the text begins with a sign, and is put in parentheses
        have hsign : (drawn t rows (.unary .negate e)).text.toList.head? = some '-' := by
          simp [drawn, Tree.text]
        rw [hsign]
        exact .of_atom rfl rfl rfl
      | not =>
        -- the negation stands without parentheses, and is not in sight
        have hword : (drawn t rows (.unary .not e)).text.toList.head? = some 'N' := by
          simp [drawn, Tree.text]
        rw [hword]
        refine .mk_of_not_isNegation rfl rfl (ih.negation rfl) ?_
        intro shown
        cases shown

end Signed

/-! ## Tighter trees -/

theorem level_le (op : Op) : op.level ≤ atomLevel :=
  Nat.le_of_lt (Nat.lt_succ_of_lt op.level_lt)

theorem leftLevel_le (tree : Tree) : tree.leftLevel ≤ atomLevel := by
  cases tree with
  | binary l op r => exact Nat.le_trans (Nat.min_le_left _ _) (level_le op)
  | isNull e negated => exact Nat.le_trans (Nat.min_le_left _ _) (by decide)
  | _ => exact Nat.le_refl _

theorem rightLevel_le (tree : Tree) : tree.rightLevel ≤ atomLevel := by
  cases tree with
  | neg e => exact Nat.le_trans (Nat.min_le_left _ _) (by decide)
  | not e => exact Nat.le_trans (Nat.min_le_left _ _) (by decide)
  | binary l op r => exact Nat.le_trans (Nat.min_le_left _ _) (level_le op)
  | _ => exact Nat.le_refl _

/-- A tree that binds as tightly as another one on both sides, and is ordered if that one is. -/
structure Tighter (tree other : Tree) : Prop where
  ordered : other.Ordered → tree.Ordered
  left : other.leftLevel ≤ tree.leftLevel
  right : other.rightLevel ≤ tree.rightLevel

namespace Tighter

variable {tree other l l' r r' : Tree}

theorem refl (tree : Tree) : Tighter tree tree :=
  ⟨id, Nat.le_refl _, Nat.le_refl _⟩

/-- Nothing binds more tightly than what no operator can take apart. -/
theorem of_atom (ordered : other.Ordered → tree.Ordered) (left : tree.leftLevel = atomLevel)
    (right : tree.rightLevel = atomLevel) : Tighter tree other :=
  ⟨ordered, left ▸ leftLevel_le other, right ▸ rightLevel_le other⟩

theorem wrapped (h : Tighter tree other) (needed : Bool) :
    Tighter (wrapped needed tree) (Rendering.wrapped needed other) := by
  cases needed with
  | true => exact .of_atom h.ordered rfl rfl
  | false => exact h

theorem binary (op : Op) (hl : Tighter l l') (hr : Tighter r r') :
    Tighter (.binary l op r) (.binary l' op r') where
  ordered h := ⟨hl.ordered h.1, hr.ordered h.2.1, Nat.le_trans h.2.2.1 hl.right,
    Nat.lt_of_lt_of_le h.2.2.2 hr.left⟩
  left := min_le_min_left _ hl.left
  right := min_le_min_left _ hr.right

theorem operation (op : BinaryOp) (hl : Tighter l l') (hr : Tighter r r') :
    Tighter (operation op l r) (Rendering.operation op l' r') := by
  unfold Rendering.operation
  split
  · exact .of_atom (Tighter.binary .comma hl hr).ordered rfl rfl
  · exact .binary _ hl hr

/-- A minus sign before what nothing takes apart. -/
theorem neg (ordered : other.Ordered → tree.Ordered) (left : tree.leftLevel = atomLevel)
    (right : signLevel ≤ tree.rightLevel) : Tighter (.neg tree) (.neg other) where
  ordered h := ⟨ordered h.1, by rw [left]; decide⟩
  left := Nat.le_refl _
  right := Nat.le_min.mpr ⟨Nat.min_le_left _ _, Nat.le_trans (Nat.min_le_left _ _) right⟩

/-- A negation reaches as far as what it negates. -/
theorem not (ordered : other.Ordered → tree.Ordered) (left : tree.leftLevel = atomLevel)
    (right : notLevel ≤ tree.rightLevel) : Tighter (.not tree) (.not other) where
  ordered h := ⟨ordered h.1, by rw [left]; decide⟩
  left := Nat.le_refl _
  right := Nat.le_min.mpr ⟨Nat.min_le_left _ _, Nat.le_trans (Nat.min_le_left _ _) right⟩

theorem isNull (h : Tighter tree other) (negated : Bool) :
    Tighter (.isNull tree negated) (.isNull other negated) where
  ordered h' := ⟨h.ordered h'.1, Nat.le_trans h'.2 h.right⟩
  left := min_le_min_left _ h.left
  right := Nat.le_refl _

/-- An operand with variables is in parentheses, or binds tightly, where the one without is. -/
theorem operand {e : Expr} (he : e.IsVarFormula)
    (h : Tighter (drawn t rows e) (written t rows e.inlined)) (parent : Nat) (onRight : Bool) :
    Tighter (Rendering.wrapped (needsParens e parent onRight) (drawn t rows e))
      (Rendering.wrapped (needsParens e.inlined parent onRight) (written t rows e.inlined)) := by
  cases he with
  | @«variable» name value hvalue =>
    cases hneeds : needsParens value.inlined parent onRight with
    | true =>
      have hbinary : value.inlined.isBinary = true := by
        unfold needsParens at hneeds
        split at hneeds
        · next hvalue =>
          rw [hvalue]
          rfl
        · cases hneeds
      have levels : (drawn t rows (.variable name (some value))).leftLevel = atomLevel ∧
          (drawn t rows (.variable name (some value))).rightLevel = atomLevel :=
        levels_drawn_of_hidden (.variable name hvalue) rfl hbinary
      simp only [Expr.inlined, hneeds]
      exact .of_atom h.ordered levels.1 levels.2
    | false =>
      simp only [Expr.inlined, hneeds]
      exact h
  | _ => exact h.wrapped _

end Tighter

/-- **What is written with variables binds as tightly as what is written without.** -/
theorem tighter_drawn {e : Expr} (he : e.IsVarFormula) (hclear : e.clear t = true)
    (hsigns : e.clearSigns = true) : Tighter (drawn t rows e) (written t rows e.inlined) := by
  induction he with
  | literal value => exact .refl _
  | column ref => exact .refl _
  | @unary op e he ih =>
    rw [Expr.clear] at hclear
    have levels : SignedLevels t rows e
        (wrapped (signNeedsParens e (drawn t rows e).text) (drawn t rows e)) :=
      signedLevels_drawn he
    cases op with
    | negate =>
      rw [Expr.clearSigns, Bool.and_eq_true] at hsigns
      have h := ih hclear hsigns.2
      rw [drawn, Expr.inlined, written]
      exact .neg (by simpa using h.ordered) levels.left (levels.shown hsigns.1)
    | not =>
      have h := ih hclear hsigns
      rw [drawn, Expr.inlined, written]
      exact .not (by simpa using h.ordered) levels.left levels.right
  | @binary l r op hop hl hr ihl ihr =>
    rw [Expr.clear, Bool.and_eq_true, Bool.and_eq_true] at hclear
    rw [Expr.clearSigns, Bool.and_eq_true] at hsigns
    have hleft := ihl hclear.1.2 hsigns.1
    have hright := ihr hclear.2 hsigns.2
    simp only [drawn, writtenOperation, Expr.inlined, written, asksForValue_inlined hclear.1.1]
    split
    · next hasks =>
      rw [isBlank_inlined_of_asksForValue hclear.1.1 hasks]
      split
      · exact .isNull (.operand hl hleft _ _) _
      · exact .isNull (.operand hr hright _ _) _
    · split
      · exact .operation op hleft hright
      · exact .operation op (.operand hl hleft _ _) (.operand hr hright _ _)
  | @«variable» name value hvalue ih =>
    rw [Expr.clear, Expr.clearOpt] at hclear
    rw [Expr.clearSigns] at hsigns
    have h := ih hclear hsigns
    rw [drawn, Expr.inlined]
    cases value.isBinary with
    | true => exact .of_atom h.ordered rfl rfl
    | false => exact h

/-- **The parentheses of a formula are redundant**: with its variables and without them it is read
as it is meant. -/
theorem readText_renderExpr_inlined {e : Expr} (he : e.IsVarFormula) (hclear : e.clear t = true)
    (hsigns : e.clearSigns = true) (hkeeps : e.inlined.keepsGrouping = true) (s : RenderState)
    (hcolumns : ∀ ref ∈ e.inlined.columns, isOperand (columnAt t s.rowTables ref).sql = true) :
    ∃ sql sql', (renderExpr t e s).1 = .ok sql ∧ (renderExpr t e.inlined s).1 = .ok sql' ∧
      readText sql = some (intended t s.rowTables e.inlined) ∧
      readText sql' = some (intended t s.rowTables e.inlined) := by
  have hformula := he.inlined
  have hordered : (written t s.rowTables e.inlined).Ordered := (ordered_written hformula).mpr hkeeps
  obtain ⟨u, hu, -⟩ := gives_drawn (t := t) he s rfl
  obtain ⟨u', hu', -⟩ := gives_renderLevels (t := t) hformula (Nat.le_refl e.inlined.height) s rfl
  refine ⟨_, _, congrArg Prod.fst hu, congrArg Prod.fst hu', ?_, ?_⟩
  · rw [← bare_drawn he hclear]
    exact (readText_text_iff (plain_drawn he hcolumns)).mpr
      ((tighter_drawn he hclear hsigns).ordered hordered)
  · rw [← bare_written hformula]
    exact (readText_text_iff (plain_written hformula hcolumns)).mpr hordered

end Drawn

/-- **Variables are transparent where they hide nothing.**  A clear expression and the expression
without its variables, rendered from the same state, both give SQL, which is the same but for
parentheses, or both give the same error; and they come to the same state, with the same confidence,
warnings, patterns and tables.  The parentheses are redundant in every formula of the expression
whose grouping is kept and in which no variable hides a negation from a minus sign. -/
theorem renderExpr_transparent (t : Target) {e : Expr} (h : e.clear t = true) (s : RenderState) :
    SameResult (SameButParens t e) (renderExpr t e s).1 (renderExpr t e.inlined s).1 ∧
      (renderExpr t e.inlined s).2 = (renderExpr t e s).2 ∧
      ∀ node ∈ e.nodes, node.IsVarFormula → node.clearSigns = true →
        node.inlined.keepsGrouping = true → ∀ u : RenderState,
        (∀ ref ∈ node.inlined.columns, isOperand (columnAt t u.rowTables ref).sql = true) →
        ∃ sql sql', (renderExpr t node u).1 = .ok sql ∧
          (renderExpr t node.inlined u).1 = .ok sql' ∧
          readText sql = some (intended t u.rowTables node.inlined) ∧
          readText sql' = some (intended t u.rowTables node.inlined) := by
  obtain ⟨hresult, hstate⟩ := renderExpr_inlined t h s
  refine ⟨hresult, hstate, ?_⟩
  intro node hnode hformula hsigns hkeeps u hcolumns
  have hclear := Expr.clear_of_mem_nodes h hnode
  exact readText_renderExpr_inlined hformula hclear hsigns hkeeps u hcolumns

/-- Twice the doubled amount of each sale, with a variable for the doubled amount and without it. -/
theorem renderExpr_doubled_sales :
    let t : Target := ⟨some .retail, .builtin, .snowflake⟩
    let doubled : Expr := .variable "doubled" (some (.binary (.column ⟨some "Sales", "Amount"⟩)
      .multiply (.literal (.integer 2))))
    let sum : Expr := .binary doubled .add doubled
    let total : Expr := .call "SUMX" [.table "Sales", sum]
    (renderExpr t total {}).1.toOption = some "SUM((sales.amount * 2) + (sales.amount * 2))" ∧
      (renderExpr t total.inlined {}).1.toOption =
        some "SUM(sales.amount * 2 + sales.amount * 2)" ∧
      total.clear t = true ∧
      SameResult (SameButParens t total) (renderExpr t total {}).1
        (renderExpr t total.inlined {}).1 ∧
      (renderExpr t total.inlined {}).2 = (renderExpr t total {}).2 ∧
      ∃ sql sql', (renderExpr t sum {}).1 = .ok sql ∧ (renderExpr t sum.inlined {}).1 = .ok sql' ∧
        readText sql = some (intended t [] sum.inlined) ∧
        readText sql' = some (intended t [] sum.inlined) := by
  intro t doubled sum total
  -- all at once, since the kernel then renders the sum only once
  have evaluated : total.clear t = true ∧
      (renderExpr t total {}).1.toOption = some "SUM((sales.amount * 2) + (sales.amount * 2))" ∧
      (renderExpr t total.inlined {}).1.toOption =
        some "SUM(sales.amount * 2 + sales.amount * 2)" := by
    dsimp only [t]
    rw [PatternLibrary.builtin_eq]
    decide +kernel
  obtain ⟨hclear, hwith, hwithout⟩ := evaluated
  have hdoubled : doubled.IsVarFormula :=
    .variable _ (.binary _ (by decide) (.column _) (.literal _))
  have hsum : sum.IsVarFormula := .binary _ (by decide) hdoubled hdoubled
  have hnode : sum ∈ total.nodes := by simp [total, sum, Expr.nodes, Expr.nodesAll]
  obtain ⟨hresult, hstate, hformulas⟩ := renderExpr_transparent t hclear {}
  exact ⟨hwith, hwithout, hclear, hresult, hstate,
    hformulas sum hnode hsum rfl rfl {} (by decide +kernel)⟩

end Rendering

end MeasureSql
