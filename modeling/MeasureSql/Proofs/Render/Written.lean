import MeasureSql.Proofs.Render.Literal
import MeasureSql.Proofs.Render.Outcome

/-!
# Formulas and how they are written

A formula is built from columns and literals by operators.  Its operations group in one way, given
by its tree, and are written in another, with parentheses where the strengths of the operators of
the expression language ask for them.  Rendering a formula gives the text of the written tree.

## Main definitions

* `Dax.Expr.IsFormula` — expressions of columns, literals and operators.
* `Rendering.columnAt` — the SQL name of a column among the rows of some tables.
* `Rendering.intended` — how the operations of a formula group.
* `Rendering.written` — the same with the parentheses that are written.
* `Rendering.writtenOperation` — one operation of it, from its operands.

## Main results

* `Rendering.bare_written` — the parentheses aside, the two are the same.
* `Rendering.gives_renderLevels` — rendering gives the text of the written tree.
-/

namespace MeasureSql

open Dax Sql.Reading

namespace Dax.Expr

/-- The expressions that are built from columns and literals by operators.  Joining texts is left
out: it has no operator in some dialects. -/
inductive IsFormula : Expr → Prop
  | literal (value : Literal) : IsFormula (.literal value)
  | column (ref : ColumnRef) : IsFormula (.column ref)
  | unary (op : UnaryOp) {e : Expr} (he : IsFormula e) : IsFormula (.unary op e)
  | binary {l r : Expr} (op : BinaryOp) (hop : op ≠ .concat) (hl : IsFormula l)
      (hr : IsFormula r) : IsFormula (.binary l op r)

/-- The columns of a formula, from left to right. -/
def columns : Expr → List ColumnRef
  | .column ref => [ref]
  | .binary l _ r => l.columns ++ r.columns
  | .unary _ e => e.columns
  | _ => []

/-- Does the operation ask whether its operand has a value? -/
def asksForValue (l : Expr) (op : BinaryOp) (r : Expr) : Bool :=
  (op == .equals || op == .notEquals) && (l.isBlank || r.isBlank)

end Dax.Expr

namespace Rendering

/-! ## Computations that succeed -/

section Gives

variable {α β : Type} {rows : List String}

/-- From every state among the rows of some tables the computation gives the value and stays among
them. -/
def Gives (rows : List String) (m : Rendering α) (a : α) : Prop :=
  ∀ s : RenderState, s.rowTables = rows → ∃ s', m s = (.ok a, s') ∧ s'.rowTables = rows

theorem Gives.pure (a : α) : Gives rows (Pure.pure a : Rendering α) a :=
  fun s hs => ⟨s, rfl, hs⟩

/-- A sequence gives what its last part does. -/
theorem Gives.bind {m : Rendering α} {f : α → Rendering β} {a : α} {b : β} (hm : Gives rows m a)
    (hf : Gives rows (f a) b) : Gives rows (m >>= f) b := by
  intro s hs
  obtain ⟨s', hs', hrows'⟩ := hm s hs
  obtain ⟨s'', hs'', hrows''⟩ := hf s' hrows'
  exact ⟨s'', by rw [run_bind, hs']; exact hs'', hrows''⟩

/-- A change of the state that keeps the rows succeeds. -/
theorem Gives.step {f : RenderState → RenderState}
    (hf : ∀ s : RenderState, (f s).rowTables = s.rowTables) :
    Gives rows (modify f : Rendering Unit) () :=
  fun s hs => ⟨f s, rfl, (hf s).trans hs⟩

theorem gives_note (level : Confidence) (warning : String) : Gives rows (note level warning) () :=
  .step fun _ => rfl

theorem gives_useTable (table : String) : Gives rows (useTable table) () :=
  .step fun _ => rfl

theorem Gives.ite {c : Prop} [Decidable c] {m n : Rendering α} {a : α} (hm : Gives rows m a)
    (hn : Gives rows n a) : Gives rows (if c then m else n) a := by
  split
  · exact hm
  · exact hn

/-- The rows are those of the state. -/
theorem gives_rowTables {f : RenderState → Rendering α} {a : α}
    (hf : ∀ s : RenderState, s.rowTables = rows → Gives rows (f s) a) :
    Gives rows (get >>= f) a := by
  intro s hs
  obtain ⟨s', hs', hrows'⟩ := hf s hs s hs
  exact ⟨s', by rw [run_bind]; exact hs', hrows'⟩

end Gives

/-! ## Columns -/

/-- The SQL name of a table. -/
def tableAt (t : Target) (name : String) : String :=
  ((t.schema?.bind (·.table? name)).map (·.name)).getD (guess name)

/-- The SQL name of a column among the rows of some tables. -/
def columnAt (t : Target) (rows : List String) (ref : ColumnRef) : ResolvedColumn :=
  match ref.table with
  | some table => .ofTable (tableAt t table)
      (((t.schema?.bind (·.column? table ref.column)).map (·.name)).getD (guess ref.column))
  | none => match t.schema? with
    | some schema => match schema.findColumn? ref.column rows with
      | some (table, column) => .ofTable table.name column.name
      | none => .bare (guess ref.column)
    | none => match rows.getLast? with
      | some table => .ofTable table (guess ref.column)
      | none => .bare (guess ref.column)

section Columns

variable {t : Target} {rows : List String}

theorem gives_resolveTable (name : String) : Gives rows (resolveTable t name) (tableAt t name) := by
  have huse : ∀ resolved, Gives rows (do useTable resolved; Pure.pure resolved) resolved :=
    fun resolved => (gives_useTable resolved).bind (.pure resolved)
  unfold resolveTable tableAt
  dsimp only
  cases t.schema? with
  | none => exact (gives_note _ _).bind (huse _)
  | some schema =>
    simp only [Option.bind_some]
    cases schema.table? name with
    | none => exact (gives_note _ _).bind (huse _)
    | some table => exact huse _

/-- **A column is rendered by its SQL name.** -/
theorem gives_resolveColumn (ref : ColumnRef) :
    Gives rows (resolveColumn t ref) (columnAt t rows ref) := by
  unfold resolveColumn columnAt
  cases ref.table with
  | some table =>
    refine (gives_resolveTable table).bind ?_
    cases t.schema? with
    | none => exact .pure _
    | some schema =>
      simp only [Option.bind_some]
      cases schema.column? table ref.column with
      | none => exact (gives_note _ _).bind (.pure _)
      | some column => exact .pure _
  | none =>
    rw [resolveBare]
    cases t.schema? with
    | some schema =>
      refine gives_rowTables fun s hs => ?_
      rw [hs]
      dsimp only
      cases schema.findColumn? ref.column rows with
      | none => exact (gives_note _ _).bind (.pure _)
      | some entry => exact (gives_useTable _).bind (.pure _)
    | none =>
      refine (gives_note _ _).bind (gives_rowTables fun s hs => ?_)
      rw [hs]
      dsimp only
      cases rows.getLast? with
      | none => exact .pure _
      | some table => exact .pure _

end Columns

/-! ## Trees -/

/-- The operator of SQL; the operands of a power are a list. -/
def sqlOp : BinaryOp → Op
  | .add => .add
  | .subtract => .sub
  | .multiply => .mul
  | .divide => .div
  | .equals => .eq
  | .notEquals => .ne
  | .lessThan => .lt
  | .lessEqual => .le
  | .greaterThan => .gt
  | .greaterEqual => .ge
  | .and => .and
  | .or => .or
  | .power | .concat => .comma

/-- An operation from the trees of its operands; a power is a function. -/
def operation (op : BinaryOp) (l r : Tree) : Tree :=
  if op = .power then .call "POWER" (.binary l .comma r) else .binary l (sqlOp op) r

/-- A tree in parentheses, if need be. -/
def wrapped (needed : Bool) (e : Tree) : Tree :=
  if needed then .paren e else e

/-- **How the operations of a formula group.**  A comparison with no value asks for `NULL`. -/
def intended (t : Target) (rows : List String) : Expr → Tree
  | .literal value => literalTree t.dialect value
  | .column ref => .operand (columnAt t rows ref).sql
  | .unary .negate e => .neg (intended t rows e)
  | .unary .not e => .not (intended t rows e)
  | .binary l op r =>
    if Expr.asksForValue l op r then
      .isNull (if r.isBlank then intended t rows l else intended t rows r) (op == .notEquals)
    else operation op (intended t rows l) (intended t rows r)
  | _ => .operand ""

/-- **The tree of a formula as it is written**, with parentheses by the strengths of operators. -/
def written (t : Target) (rows : List String) : Expr → Tree
  | .literal value => literalTree t.dialect value
  | .column ref => .operand (columnAt t rows ref).sql
  | .unary .negate e =>
    .neg (wrapped (signNeedsParens e (written t rows e).text) (written t rows e))
  | .unary .not e =>
    .not (wrapped (signNeedsParens e (written t rows e).text) (written t rows e))
  | .binary l op r =>
    if Expr.asksForValue l op r then
      .isNull (if r.isBlank then
          wrapped (needsParens l BinaryOp.lessThan.strength false) (written t rows l)
        else wrapped (needsParens r BinaryOp.lessThan.strength false) (written t rows r))
        (op == .notEquals)
    else if op = .power then operation op (written t rows l) (written t rows r)
    else operation op (wrapped (needsParens l op.strength false) (written t rows l))
      (wrapped (needsParens r op.strength true) (written t rows r))
  | _ => .operand ""

/-- A sign as it is written, from the tree of its operand as it is written. -/
def writtenSign (op : UnaryOp) (e : Expr) (tree : Tree) : Tree :=
  match op with
  | .negate => .neg (wrapped (signNeedsParens e tree.text) tree)
  | .not => .not (wrapped (signNeedsParens e tree.text) tree)

theorem written_unary (t : Target) (rows : List String) (op : UnaryOp) (e : Expr) :
    written t rows (.unary op e) = writtenSign op e (written t rows e) := by
  cases op <;> rfl

/-- An operation as it is written, from the trees of its operands as they are written. -/
def writtenOperation (l : Expr) (op : BinaryOp) (r : Expr) (left right : Tree) : Tree :=
  if Expr.asksForValue l op r then
    .isNull (if r.isBlank then wrapped (needsParens l BinaryOp.lessThan.strength false) left
      else wrapped (needsParens r BinaryOp.lessThan.strength false) right) (op == .notEquals)
  else if op = .power then operation op left right
  else operation op (wrapped (needsParens l op.strength false) left)
    (wrapped (needsParens r op.strength true) right)

attribute [local simp] written

theorem written_binary (t : Target) (rows : List String) (l : Expr) (op : BinaryOp) (r : Expr) :
    written t rows (.binary l op r) =
      writtenOperation l op r (written t rows l) (written t rows r) := by
  rw [written, writtenOperation]

@[simp] theorem bare_wrapped (needed : Bool) (e : Tree) : (wrapped needed e).bare = e.bare := by
  cases needed <;> rfl

@[simp] theorem text_wrapped (needed : Bool) (e : Tree) :
    (wrapped needed e).text = parenthesized needed e.text := by
  cases needed <;> rfl

theorem bare_operation (op : BinaryOp) (l r : Tree) :
    (operation op l r).bare = operation op l.bare r.bare := by
  unfold operation
  split
  · rfl
  · rfl

theorem bare_literalTree (d : Dialect) (value : Literal) :
    (literalTree d value).bare = literalTree d value := by
  obtain ⟨text, h | h⟩ := exists_literalTree d value
  · rw [h]
    rfl
  · rw [h]
    rfl

@[simp] theorem plain_wrapped (needed : Bool) (e : Tree) : (wrapped needed e).Plain ↔ e.Plain := by
  cases needed <;> exact Iff.rfl

section Trees

variable {t : Target} {rows : List String}

/-- **What is written differs from what is meant by parentheses only.** -/
theorem bare_written {e : Expr} (he : e.IsFormula) :
    (written t rows e).bare = intended t rows e := by
  induction he with
  | literal value => exact bare_literalTree _ _
  | column ref => rfl
  | unary op he ih =>
    cases op with
    | negate => simp only [written, intended, Tree.bare, bare_wrapped, ih]
    | not => simp only [written, intended, Tree.bare, bare_wrapped, ih]
  | binary op hop hl hr ihl ihr =>
    simp only [written, intended]
    split
    · split
      · simp only [Tree.bare, bare_wrapped, ihl]
      · simp only [Tree.bare, bare_wrapped, ihr]
    · split
      · rw [bare_operation, ihl, ihr]
      · rw [bare_operation, bare_wrapped, bare_wrapped, ihl, ihr]

/-- An operator is spelled as in the expression language, but for the words. -/
theorem spaced_sqlOp {op : BinaryOp} (hpower : op ≠ .power) (hconcat : op ≠ .concat) :
    (sqlOp op).spaced = " " ++ sqlSymbol op ++ " " := by
  cases op with
  | power => exact absurd rfl hpower
  | concat => exact absurd rfl hconcat
  | _ => rfl

variable {sub : Expr → Rendering String}

theorem gives_renderOperand {e : Expr} {tree : Tree} (h : Gives rows (sub e) tree.text)
    (parent : Nat) (onRight : Bool) :
    Gives rows (renderOperand sub e parent onRight)
      (wrapped (needsParens e parent onRight) tree).text := by
  rw [text_wrapped]
  exact h.bind (.pure _)

theorem gives_renderBinary {l r : Expr} {op : BinaryOp} {left right : Tree} (hop : op ≠ .concat)
    (hl : Gives rows (sub l) left.text) (hr : Gives rows (sub r) right.text) :
    Gives rows (renderBinary t sub l op r) (writtenOperation l op r left right).text := by
  rw [renderBinary]
  rw [writtenOperation, Expr.asksForValue]
  split
  · dsimp only
    split
    · exact (gives_renderOperand hl _ _).bind (.pure _)
    · exact (gives_renderOperand hr _ _).bind (.pure _)
  · by_cases hpower : op = .power
    · subst hpower
      exact hl.bind (hr.bind (.pure _))
    · have hnotPower : (op == .power) = false := by simpa using hpower
      have hnotConcat : (op == .concat) = false := by simpa using hop
      simp only [hnotPower, hnotConcat, Bool.false_eq_true, if_false, hpower, operation]
      refine (gives_renderOperand hl _ _).bind ((gives_renderOperand hr _ _).bind ?_)
      rw [Tree.text, spaced_sqlOp hpower hop]
      simp only [String.append_assoc]
      exact .pure _

theorem gives_renderUnary {e : Expr} {tree : Tree} (op : UnaryOp)
    (h : Gives rows (sub e) tree.text) :
    Gives rows (renderUnary sub op e) (writtenSign op e tree).text := by
  refine h.bind ?_
  cases op with
  | negate =>
    rw [writtenSign, Tree.text, text_wrapped]
    exact .pure _
  | not =>
    rw [writtenSign, Tree.text, text_wrapped]
    exact .pure _

/-- **Rendering a formula gives the text of the written tree.** -/
theorem gives_renderLevels {e : Expr} (he : e.IsFormula) {levels : Nat} (h : e.height ≤ levels) :
    Gives rows (renderLevels t levels e) (written t rows e).text := by
  induction he generalizing levels with
  | literal value =>
    obtain ⟨levels, rfl⟩ : ∃ k, levels = k + 1 :=
      ⟨levels - 1, by simp only [Expr.height] at h; omega⟩
    rw [written, text_literalTree]
    exact .pure _
  | column ref =>
    obtain ⟨levels, rfl⟩ : ∃ k, levels = k + 1 :=
      ⟨levels - 1, by simp only [Expr.height] at h; omega⟩
    exact (gives_resolveColumn ref).bind (.pure _)
  | unary op he ih =>
    simp only [Expr.height] at h
    obtain ⟨levels, rfl⟩ : ∃ k, levels = k + 1 := ⟨levels - 1, by omega⟩
    rw [written_unary]
    exact gives_renderUnary op (ih (by omega))
  | binary op hop hl hr ihl ihr =>
    simp only [Expr.height] at h
    obtain ⟨levels, rfl⟩ : ∃ k, levels = k + 1 := ⟨levels - 1, by omega⟩
    rw [written_binary]
    exact gives_renderBinary hop (ihl (by omega)) (ihr (by omega))

/-- A sign can be written when its operand can: a text that begins with a sign of its own is put in
parentheses. -/
theorem plain_writtenSign {e : Expr} {tree : Tree} (h : tree.Plain) (op : UnaryOp) :
    (writtenSign op e tree).Plain := by
  cases op with
  | negate =>
    refine ⟨(plain_wrapped _ _).mpr h, ?_⟩
    rw [text_wrapped, parenthesized]
    split
    · simp
    · next hneeds =>
      unfold signNeedsParens at hneeds
      rw [Bool.or_eq_true, not_or] at hneeds
      simpa using hneeds.2
  | not => exact (plain_wrapped _ _).mpr h

/-- An operation can be written when its operands can. -/
theorem plain_writtenOperation {l r : Expr} {op : BinaryOp} {left right : Tree} (hl : left.Plain)
    (hr : right.Plain) : (writtenOperation l op r left right).Plain := by
  unfold writtenOperation
  split
  · split
    · exact (plain_wrapped _ _).mpr hl
    · exact (plain_wrapped _ _).mpr hr
  · unfold operation
    split
    · exact ⟨by decide +kernel, hl, hr⟩
    · exact ⟨(plain_wrapped _ _).mpr hl, (plain_wrapped _ _).mpr hr⟩

/-- The tree of a formula can be written when the names of its columns can. -/
theorem plain_written {e : Expr} (he : e.IsFormula)
    (h : ∀ ref ∈ e.columns, isOperand (columnAt t rows ref).sql = true) :
    (written t rows e).Plain := by
  induction he with
  | literal value => exact plain_literalTree _ _
  | column ref => exact h ref List.mem_cons_self
  | unary op he ih =>
    rw [written_unary]
    exact plain_writtenSign (ih h) op
  | binary op hop hl hr ihl ihr =>
    have hleft := ihl fun ref href => h ref (List.mem_append_left _ href)
    have hright := ihr fun ref href => h ref (List.mem_append_right _ href)
    rw [written_binary]
    exact plain_writtenOperation hleft hright

end Trees

end Rendering

end MeasureSql
