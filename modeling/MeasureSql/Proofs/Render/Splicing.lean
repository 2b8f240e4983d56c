import MeasureSql.Proofs.Pattern.Catalog
import MeasureSql.Proofs.Render.Grouping
import MeasureSql.Proofs.Render.Levels

/-!
# Arguments beside the operators of a pattern

Five patterns put an argument beside an operator, and none of them puts it in parentheses.  So an
argument keeps together only when it binds more tightly than that operator.

## Main definitions

* `Splice` — the calls of these patterns.
* `Splice.meaning` — the operation that such a call stands for.
* `Splice.keepsArguments` — does every argument bind tightly enough for its place?

## Main results

* `Rendering.gives_renderCall` — the text of such a call.
* `Rendering.readText_splice` — a call is read as the operation on its arguments exactly when they
  keep together.
-/

namespace MeasureSql

open Dax Sql.Reading

/-- The calls whose pattern puts an argument beside an operator. -/
inductive Splice where
  | and (a b : Expr)
  | or (a b : Expr)
  | not (a : Expr)
  | isBlank (a : Expr)
  | divide (a b : Expr) (alternate : Option Expr)

namespace Splice

/-- The name of the function. -/
def function : Splice → String
  | .and _ _ => "AND"
  | .or _ _ => "OR"
  | .not _ => "NOT"
  | .isBlank _ => "ISBLANK"
  | .divide _ _ _ => "DIVIDE"

/-- The arguments, in the order of a call. -/
def args : Splice → List Expr
  | .and a b => [a, b]
  | .or a b => [a, b]
  | .not a => [a]
  | .isBlank a => [a]
  | .divide a b alternate => a :: b :: alternate.toList

/-- **The operation that a call stands for**, given the trees of its arguments.  A division is
guarded: where the divisor is zero, it is the alternate or no value. -/
def meaning (tree : Expr → Tree) : Splice → Tree
  | .and a b => .binary (tree a) .and (tree b)
  | .or a b => .binary (tree a) .or (tree b)
  | .not a => .not (tree a)
  | .isBlank a => .isNull (tree a) false
  | .divide a b alternate =>
    .caseWhen (.binary (tree b) .eq (.operand "0")) ((alternate.map tree).getD (.operand "NULL"))
      (.binary (tree a) .div (tree b))

/-- The tree that is written: all but the division stand in parentheses. -/
def spliced (tree : Expr → Tree) : Splice → Tree
  | .divide a b alternate => (Splice.divide a b alternate).meaning tree
  | c => .paren (c.meaning tree)

/-- **Does every argument bind tightly enough for its place?**  The divisor stands in two places. -/
def keepsArguments : Splice → Bool
  | .and a b => Op.and.level ≤ a.trailLevel && Op.and.level < b.leadLevel
  | .or a b => Op.or.level ≤ a.trailLevel && Op.or.level < b.leadLevel
  | .not a => notLevel < a.leadLevel
  | .isBlank a => comparisonLevel ≤ a.trailLevel
  | .divide a b _ => Op.div.level ≤ a.trailLevel && Op.div.level < b.leadLevel
      && Op.eq.level ≤ b.trailLevel

theorem bare_spliced (tree : Expr → Tree) (c : Splice) :
    (c.spliced tree).bare = c.meaning fun e => (tree e).bare := by
  cases c with
  | divide a b alternate => cases alternate <;> rfl
  | _ => rfl

/-- A call can be written when its arguments can. -/
theorem plain_spliced {tree : Expr → Tree} {c : Splice} (h : ∀ e ∈ c.args, (tree e).Plain) :
    (c.spliced tree).Plain := by
  cases c with
  | and a b => exact ⟨h a (by simp [args]), h b (by simp [args])⟩
  | or a b => exact ⟨h a (by simp [args]), h b (by simp [args])⟩
  | not a => exact h a (by simp [args])
  | isBlank a => exact h a (by simp [args])
  | divide a b alternate =>
    have ha := h a (by simp [args])
    have hb := h b (by simp [args])
    have hzero : isOperand "0" = true := by decide +kernel
    cases alternate with
    | none =>
      have hnull : isOperand "NULL" = true := by decide +kernel
      exact ⟨⟨hb, hzero⟩, hnull, ha, hb⟩
    | some e => exact ⟨⟨hb, hzero⟩, h e (by simp [args]), ha, hb⟩

/-- The operands of an argument are operands of the call. -/
theorem mem_leaves_meaning {tree : Expr → Tree} {c : Splice} {e : Expr} (he : e ∈ c.args)
    {operand : String} (h : operand ∈ (tree e).leaves) : operand ∈ (c.meaning tree).leaves := by
  have hargs : ∀ e ∈ c.args, operand ∈ (tree e).leaves → operand ∈ (c.meaning tree).leaves := by
    cases c with
    | divide a b alternate => cases alternate <;> simp +contextual [args, meaning, Tree.leaves]
    | _ => simp +contextual [args, meaning, Tree.leaves]
  exact hargs e he h

/-- The operation depends on the trees of the arguments alone. -/
theorem meaning_congr {f g : Expr → Tree} {c : Splice} (h : ∀ e ∈ c.args, f e = g e) :
    c.meaning f = c.meaning g := by
  cases c with
  | divide a b alternate => cases alternate <;> simp_all [args, meaning]
  | _ => simp_all [args, meaning]

/-! ## The patterns -/

/-- The template of the function. -/
def template : Splice → String
  | .and _ _ => "({left} AND {right})"
  | .or _ _ => "({left} OR {right})"
  | .not _ => "(NOT {value})"
  | .isBlank _ => "({value} IS NULL)"
  | .divide _ _ _ =>
    "CASE WHEN {denominator} = 0 THEN {alternate} ELSE {numerator} / {denominator} END"

/-- The parameters of the function. -/
def params : Splice → List String
  | .and _ _ => ["left", "right"]
  | .or _ _ => ["left", "right"]
  | .not _ => ["value"]
  | .isBlank _ => ["value"]
  | .divide _ _ _ => ["numerator", "denominator", "alternate"]

/-- The defaults of the function. -/
def defaults : Splice → Bindings
  | .divide _ _ _ => [("alternate", "NULL")]
  | _ => []

/-- The pieces of a text without holes. -/
def plain (s : String) : List Template.Piece :=
  s.toList.map .char

theorem flatMap_plain (value : String → Option String) (s : String) :
    (plain s).flatMap (Template.fillPiece value) = s.toList := by
  simp [plain, List.flatMap_map, Template.fillPiece]

/-- The pieces of the template. -/
def pieces : Splice → List Template.Piece
  | .and _ _ => plain "(" ++ .hole "left" :: (plain " AND " ++ .hole "right" :: plain ")")
  | .or _ _ => plain "(" ++ .hole "left" :: (plain " OR " ++ .hole "right" :: plain ")")
  | .not _ => plain "(NOT " ++ .hole "value" :: plain ")"
  | .isBlank _ => plain "(" ++ .hole "value" :: plain " IS NULL)"
  | .divide _ _ _ => plain "CASE WHEN " ++ .hole "denominator" :: (plain " = 0 THEN " ++
      .hole "alternate" :: (plain " ELSE " ++ .hole "numerator" :: (plain " / " ++
        .hole "denominator" :: plain " END")))

/-- One call of each function. -/
def all : List Splice :=
  [.and .blank .blank, .or .blank .blank, .not .blank, .isBlank .blank, .divide .blank .blank none]

/-- The catalog, evaluated. -/
theorem builtin_spliced :
    (Catalog.builtin.all fun p => all.all fun c => p.name != c.function
      || (p.template == c.template && p.params == c.params && p.defaults == c.defaults
        && p.separator == none)) = true := by
  decide +kernel

/-- The templates, evaluated: no dialect has other words in them. -/
theorem all_pieces : ∀ d ∈ Dialect.all, ∀ c ∈ all,
    Template.renameFunctions d c.template = c.template ∧
      Template.pieces c.template = c.pieces ∧ Template.holes c.template ⊆ c.params := by
  decide +kernel

/-- A call has the function of one of those that were evaluated. -/
theorem exists_mem_all (c : Splice) : ∃ c' ∈ all, c'.function = c.function ∧
    c'.template = c.template ∧ c'.params = c.params ∧ c'.defaults = c.defaults ∧
      c'.pieces = c.pieces := by
  cases c <;> simp [all, function, template, params, defaults, pieces]

/-- The pattern of a call in the catalog. -/
theorem eq_of_mem_builtin (c : Splice) {p : Pattern} (hp : p ∈ Catalog.builtin)
    (hname : p.name = c.function) : p.template = c.template ∧ p.params = c.params ∧
      p.defaults = c.defaults ∧ p.separator = none := by
  obtain ⟨c', hmem, hfunction, htemplate, hparams, hdefaults, -⟩ := c.exists_mem_all
  have hall := List.all_eq_true.mp (List.all_eq_true.mp builtin_spliced p hp) c' hmem
  simp only [hname, hfunction, bne_self_eq_false, Bool.false_or, Bool.and_eq_true,
    beq_iff_eq] at hall
  rw [← htemplate, ← hparams, ← hdefaults]
  exact ⟨hall.1.1.1, hall.1.1.2, hall.1.2, hall.2⟩

/-- The template of a call in every dialect. -/
theorem template_spec (c : Splice) (d : Dialect) :
    Template.renameFunctions d c.template = c.template ∧
      Template.pieces c.template = c.pieces ∧ Template.holes c.template ⊆ c.params := by
  obtain ⟨c', hmem, -, htemplate, hparams, -, hpieces⟩ := c.exists_mem_all
  have hd : d ∈ Dialect.all := by cases d <;> decide
  have hspec := all_pieces d hd c' hmem
  rwa [htemplate, hparams, hpieces] at hspec

/-- **The pattern of a call gives the text of its tree.** -/
theorem render_spliced (c : Splice) {p : Pattern} (hp : p ∈ Catalog.builtin)
    (hname : p.name = c.function) (d : Dialect) (tree : Expr → Tree) :
    p.render d (p.bind (c.args.map fun e => (tree e).text)).bindings =
      .ok (c.spliced tree).text := by
  obtain ⟨htemplate, hparams, hdefaults, hsep⟩ := c.eq_of_mem_builtin hp hname
  obtain ⟨hrename, hpieces, hholes⟩ := c.template_spec d
  have hfill : ∀ {b : Bindings}, (∀ param ∈ c.params, (p.valueOf d b param).isSome = true) →
      p.render d b =
        .ok (String.ofList (c.pieces.flatMap (Template.fillPiece (p.valueOf d b)))) := by
    intro b hvalue
    rw [Pattern.render, htemplate, hrename, ← hpieces]
    exact Template.fill_eq_ok fun hole hhole => hvalue hole (hholes hhole)
  rw [hfill fun param hparam => ?_]
  · congr 1
    rw [← String.toList_inj, String.toList_ofList]
    have hbind : ∀ args, p.bind args = p.bindFrom c.params args {} := fun _ => by
      rw [Pattern.bind, hparams]
    rw [hbind]
    cases c with
    | divide a b alternate =>
      cases alternate with
      | none =>
        have hnull : Template.renameFunctions d "NULL" = "NULL" := by
          cases d <;> decide +kernel
        simp [pieces, flatMap_plain, Template.fillPiece, Pattern.valueOf, params, args,
          Pattern.bindFrom, hsep, BoundArgs.give, hdefaults, defaults, Bindings.contains,
          Bindings.insert, List.lookup_cons, spliced, meaning, Tree.text, toList_conditionalText,
          Op.spaced, Op.symbol, hnull]
      | some e =>
        simp [pieces, flatMap_plain, Template.fillPiece, Pattern.valueOf, params, args,
          Pattern.bindFrom, hsep, BoundArgs.give, Bindings.insert, List.lookup_cons, spliced,
          meaning, Tree.text, toList_conditionalText, Op.spaced, Op.symbol]
    | _ =>
      simp [pieces, flatMap_plain, Template.fillPiece, Pattern.valueOf, params, args,
        Pattern.bindFrom, hsep, BoundArgs.give, Bindings.insert, List.lookup_cons, spliced, meaning,
        Tree.text, Op.spaced, Op.symbol]
  · rw [Pattern.isSome_valueOf]
    simpa using p.isSome_lookup_bind _ (hparams ▸ hparam)

end Splice

namespace Rendering

variable {t : Target} {rows : List String}

/-! ## The text of a call -/

theorem gives_demote (level : Confidence) : Gives rows (demote level) () :=
  .step fun _ => rfl

theorem gives_usePattern (p : Pattern) : Gives rows (usePattern t p) () := by
  have hdialect : Gives rows
      (if p.isDialectSpecific && !t.dialect.runsTemplates then
        note .medium (p.name ++ " uses Snowflake-specific SQL; review it for " ++ t.dialect.name)
      else Pure.pure ()) () := .ite (gives_note _ _) (.pure ())
  have hcomplex : Gives rows (do
      if p.complexity = .complex || p.category = .timeIntelligence then
        demote .medium
      if p.isDialectSpecific && !t.dialect.runsTemplates then
        note .medium (p.name ++ " uses Snowflake-specific SQL; review it for "
          ++ t.dialect.name)) () := .ite ((gives_demote _).bind hdialect) hdialect
  have hname : Gives rows (modify fun s => { s with
      patternsApplied := addNew s.patternsApplied p.name }) () := .step fun _ => rfl
  exact hname.bind (.ite ((gives_note _ _).bind hcomplex) hcomplex)

theorem gives_noteMissing (pattern : String) (params : List String) :
    Gives rows (noteMissing pattern params) () := by
  induction params with
  | nil => exact .pure ()
  | cons param params ih => exact (gives_note _ _).bind ih

/-- A pattern without a hole for a table takes its arguments as they are. -/
theorem gives_applyPattern {p : Pattern} {args : List String} (table : Option String)
    (htable : "table" ∉ Template.holes p.template) {sql : String}
    (hsql : p.render t.dialect (p.bind args).bindings = .ok sql) :
    Gives rows (applyPattern t p args table) sql := by
  have hfill : Gives rows (do usePattern t p; fillPattern t p (p.bind args).bindings) sql := by
    refine (gives_usePattern p).bind ?_
    rw [fillPattern]
    rw [hsql]
    exact .pure sql
  refine (gives_noteMissing _ _).bind (.ite ((gives_note _ _).bind ?_) ?_)
  all_goals
    dsimp only
    rw [if_neg (by simp [htable])]
    exact hfill

/-- Formulas as arguments are rendered one by one. -/
theorem gives_genericArgs {sub : Expr → Rendering String} {params : List String}
    (hparams : "table" ∉ params) {args : List Expr}
    (h : ∀ e ∈ args, Gives rows (sub e) (written t rows e).text) (table : Option String) :
    ∃ table', Gives rows (genericArgs t sub params table args)
      (args.map fun e => (written t rows e).text, table') := by
  induction args generalizing params table with
  | nil => exact ⟨table, .pure _⟩
  | cons e args ih =>
    have htail : "table" ∉ params.tail := fun hmem => hparams (List.mem_of_mem_tail hmem)
    have hrest : ∀ (sql : String) (table : Option String), ∃ table', Gives rows
        (genericArgs t sub params.tail table args >>= fun rest => Pure.pure (sql :: rest.1, rest.2))
          (sql :: args.map fun e => (written t rows e).text, table') := by
      intro sql table
      obtain ⟨table', htable'⟩ := ih htail (fun e he => h e (List.mem_cons_of_mem _ he)) table
      exact ⟨table', htable'.bind (.pure _)⟩
    unfold genericArgs
    dsimp only
    split
    · next ref =>
      -- A column in the place of a table would stand for its table.
      have hhead : (params.head? == some "table") = false := by
        cases params with
        | nil => rfl
        | cons param params => simpa using fun heq : param = "table" => hparams (by simp [heq])
      obtain ⟨table', htable'⟩ := hrest (columnAt t rows ref).sql
        (table.or (columnAt t rows ref).table)
      refine ⟨table', (gives_resolveColumn ref).bind ?_⟩
      simp only [hhead, Bool.false_eq_true, if_false]
      split
      · exact htable'
      · exact htable'
    · next hne =>
      obtain ⟨table', htable'⟩ := hrest (written t rows e).text table
      exact ⟨table', (h e List.mem_cons_self).bind htable'⟩

/-- The functions that have a rule of their own. -/
def ruled : List String :=
  ["CALCULATE", "CALCULATETABLE", "TOTALYTD", "TOTALQTD", "TOTALMTD", "SWITCH", "SUMMARIZE",
    "ADDCOLUMNS", "SELECTCOLUMNS", "SUMX", "AVERAGEX", "MINX", "MAXX", "COUNTX"]

/-- A function without a rule of its own puts its arguments into its pattern. -/
theorem renderCall_eq_genericCall {sub : Expr → Rendering String} {name : String}
    (h : Text.asciiUpper name ∉ ruled) (args : List Expr) :
    renderCall t sub name args = genericCall t sub name args := by
  rw [renderCall]
  split
  all_goals first
    | rfl
    | next heq => exact absurd (heq ▸ h) (by decide)

/-- **The text of a call** is that of its tree. -/
theorem gives_renderCall (rows : List String) (ht : t.patterns = .builtin) {c : Splice}
    (hc : ∀ e ∈ c.args, e.IsFormula) {name : String} (hname : Text.upper name = c.function) :
    Gives rows (renderExpr t (.call name c.args)) (c.spliced (written t rows)).text := by
  have hplain : c.function ∉ ruled ∧ "table" ∉ c.params := by
    have hall : ∀ c ∈ Splice.all, c.function ∉ ruled ∧ "table" ∉ c.params := by decide
    obtain ⟨c', hmem, hfunction, -, hparams, -⟩ := c.exists_mem_all
    exact hfunction ▸ hparams ▸ hall c' hmem
  have hruled : Text.asciiUpper name ∉ ruled := by
    intro hmem
    have hascii : ∀ word ∈ ruled, word.toList.all Text.isAscii = true := by decide +kernel
    have hupper := Text.upper_of_asciiUpper rfl (hascii _ hmem)
    rw [← hupper, hname] at hmem
    exact hplain.1 hmem
  obtain ⟨p, hp⟩ : ∃ p, PatternLibrary.builtin.get? name = some p := by
    obtain ⟨c', hmem, hfunction, -⟩ := c.exists_mem_all
    have hbuiltin : ∀ c ∈ Splice.all, ∃ p ∈ Catalog.builtin, p.name = c.function := by
      decide +kernel
    obtain ⟨q, hq, hqname⟩ := hbuiltin c' hmem
    exact PatternLibrary.exists_get?_builtin hq (by rw [hname, hqname, hfunction])
  obtain ⟨hmem, hpname⟩ := PatternLibrary.mem_builtin_of_get? hp
  rw [hname] at hpname
  obtain ⟨htemplate, hparams, -⟩ := c.eq_of_mem_builtin hmem hpname
  have htable : "table" ∉ Template.holes p.template := by
    rw [htemplate]
    exact fun hhole => hplain.2 ((c.template_spec t.dialect).2.2 hhole)
  have hlevels : ∀ e ∈ c.args, Gives rows (renderLevels t (Expr.heightAll c.args) e)
      (written t rows e).text :=
    fun e he => gives_renderLevels (hc e he) (Expr.height_le_heightAll he)
  obtain ⟨table, hargs⟩ := gives_genericArgs (hparams ▸ hplain.2) hlevels none
  have hcall : renderExpr t (.call name c.args) =
      genericCall t (renderLevels t (Expr.heightAll c.args)) name c.args := by
    rw [renderExpr, Expr.height, renderLevels, renderWith, renderCall_eq_genericCall hruled]
  rw [hcall, genericCall, ht, hp]
  exact hargs.bind (gives_applyPattern table htable (c.render_spliced hmem hpname t.dialect _))

/-! ## Reading what was rendered -/

/-- **The tree of a call is ordered** exactly when its arguments are, and bind tightly enough. -/
theorem ordered_spliced {c : Splice} (hc : ∀ e ∈ c.args, e.IsFormula) :
    (c.spliced (written t rows)).Ordered ↔
      (∀ e ∈ c.args, e.keepsGrouping = true) ∧ c.keepsArguments = true := by
  have hordered : ∀ e ∈ c.args, ((written t rows e).Ordered ↔ e.keepsGrouping = true) :=
    fun e he => ordered_written (hc e he)
  have hlead : ∀ e ∈ c.args, (written t rows e).leftLevel = e.leadLevel :=
    fun e he => leftLevel_written (hc e he)
  have htrail : ∀ e ∈ c.args, ∀ {k : Nat}, k < signLevel →
      (k ≤ (written t rows e).rightLevel ↔ k ≤ e.trailLevel) :=
    fun e he _ hk => le_rightLevel_written (hc e he) hk
  cases c with
  | and a b =>
    have ha : a ∈ (Splice.and a b).args := by simp [Splice.args]
    have hb : b ∈ (Splice.and a b).args := by simp [Splice.args]
    simp only [Splice.spliced, Splice.meaning, Tree.Ordered]
    rw [hordered a ha, hordered b hb, htrail a ha Op.and.level_lt, hlead b hb]
    simp [Splice.args, Splice.keepsArguments, and_assoc]
  | or a b =>
    have ha : a ∈ (Splice.or a b).args := by simp [Splice.args]
    have hb : b ∈ (Splice.or a b).args := by simp [Splice.args]
    simp only [Splice.spliced, Splice.meaning, Tree.Ordered]
    rw [hordered a ha, hordered b hb, htrail a ha Op.or.level_lt, hlead b hb]
    simp [Splice.args, Splice.keepsArguments, and_assoc]
  | not a =>
    have ha : a ∈ (Splice.not a).args := by simp [Splice.args]
    simp only [Splice.spliced, Splice.meaning, Tree.Ordered]
    rw [hordered a ha, hlead a ha]
    simp [Splice.args, Splice.keepsArguments]
  | isBlank a =>
    have ha : a ∈ (Splice.isBlank a).args := by simp [Splice.args]
    simp only [Splice.spliced, Splice.meaning, Tree.Ordered]
    rw [hordered a ha, htrail a ha (by decide)]
    simp [Splice.args, Splice.keepsArguments]
  | divide a b alternate =>
    have ha : a ∈ (Splice.divide a b alternate).args := by simp [Splice.args]
    have hb : b ∈ (Splice.divide a b alternate).args := by simp [Splice.args]
    have hzero : Op.eq.level < (Tree.operand "0").leftLevel := by decide
    have halternate : ((alternate.map (written t rows)).getD (.operand "NULL")).Ordered ↔
        ∀ e ∈ alternate, e.keepsGrouping = true := by
      cases alternate with
      | none => simp [Tree.Ordered]
      | some e => simpa using hordered e (by simp [Splice.args])
    simp only [Splice.spliced, Splice.meaning, Tree.Ordered]
    rw [hordered a ha, hordered b hb, htrail a ha Op.div.level_lt, htrail b hb Op.eq.level_lt,
      hlead b hb, halternate]
    simp only [Splice.args, Splice.keepsArguments, List.forall_mem_cons, Option.mem_toList,
      Bool.and_eq_true, decide_eq_true_eq, hzero, and_true, true_and]
    constructor
    · rintro ⟨⟨hbk, hguard⟩, hck, hak, -, hleft, hright⟩
      exact ⟨⟨hak, hbk, hck⟩, ⟨hleft, hright⟩, hguard⟩
    · rintro ⟨⟨hak, hbk, hck⟩, ⟨hleft, hright⟩, hguard⟩
      exact ⟨⟨hbk, hguard⟩, hck, hak, hbk, hleft, hright⟩

/-- **A call is read as the operation on its arguments** exactly when these keep their grouping,
bind tightly enough for their places, and have columns whose names are operands. -/
theorem readText_splice (t : Target) (ht : t.patterns = .builtin) (s : RenderState) (c : Splice)
    (hc : ∀ e ∈ c.args, e.IsFormula) {name : String} (hname : Text.upper name = c.function) :
    ∃ sql s', renderExpr t (.call name c.args) s = (.ok sql, s') ∧
      (readText sql = some (c.meaning (intended t s.rowTables)) ↔
        (∀ e ∈ c.args, ∀ ref ∈ e.columns,
          isOperand (columnAt t s.rowTables ref).sql = true) ∧
        (∀ e ∈ c.args, e.keepsGrouping = true) ∧ c.keepsArguments = true) := by
  obtain ⟨s', hs', -⟩ := gives_renderCall s.rowTables ht hc hname s rfl
  refine ⟨_, s', hs', ?_⟩
  have hmeaning : c.meaning (intended t s.rowTables) =
      (c.spliced (written t s.rowTables)).bare := by
    rw [Splice.bare_spliced]
    exact (Splice.meaning_congr fun e he => bare_written (hc e he)).symm
  have htree : (c.spliced (written t s.rowTables)).Ordered ↔
      (∀ e ∈ c.args, e.keepsGrouping = true) ∧ c.keepsArguments = true := ordered_spliced hc
  rw [← htree]
  constructor
  · intro hread
    have hcolumns : ∀ e ∈ c.args, ∀ ref ∈ e.columns,
        isOperand (columnAt t s.rowTables ref).sql = true := fun e he ref href =>
      isOperand_of_readText hread
        (Splice.mem_leaves_meaning he (mem_leaves_intended (hc e he) href))
    have hplain := Splice.plain_spliced fun e he => plain_written (hc e he) (hcolumns e he)
    rw [hmeaning] at hread
    exact ⟨hcolumns, (readText_text_iff hplain).mp hread⟩
  · rintro ⟨hcolumns, hordered⟩
    have hplain := Splice.plain_spliced fun e he => plain_written (hc e he) (hcolumns e he)
    rw [hmeaning]
    exact (readText_text_iff hplain).mpr hordered

/-- The quotient of a product is read as such, and the quotient of a sum is not: after `ELSE` stands
`1 + 2 / 3`. -/
theorem readText_quotient_of_product_and_sum :
    let t : Target := ⟨none, .builtin, .snowflake⟩
    let product : Splice := .divide (.binary (.literal (.integer 1)) .multiply
      (.literal (.integer 2))) (.column ⟨some "Sales", "Amount"⟩) none
    let sum : Splice := .divide (.binary (.literal (.integer 1)) .add (.literal (.integer 2)))
      (.literal (.integer 3)) none
    (∃ sql s, renderExpr t (.call "Divide" product.args) {} = (.ok sql, s) ∧
      readText sql = some (product.meaning (intended t []))) ∧
    ∃ sql s, renderExpr t (.call "Divide" sum.args) {} = (.ok sql, s) ∧
      readText sql ≠ some (sum.meaning (intended t [])) := by
  intro t product sum
  have ht : t.patterns = .builtin := by simp only [t]
  have hname : Text.upper "Divide" = "DIVIDE" := by decide +kernel
  have hnumber : ∀ n : Int, (Expr.literal (.integer n)).IsFormula := fun _ => .literal _
  constructor
  · obtain ⟨sql, s, hsql, hread⟩ := readText_splice t ht {} product
      (by simp [product, Splice.args, hnumber, Expr.IsFormula.binary, Expr.IsFormula.column]) hname
    refine ⟨sql, s, hsql, hread.mpr ⟨?_, ?_, rfl⟩⟩
    · decide +kernel
    · decide
  · obtain ⟨sql, s, hsql, hread⟩ := readText_splice t ht {} sum
      (by simp [sum, Splice.args, hnumber, Expr.IsFormula.binary]) hname
    exact ⟨sql, s, hsql, fun heq => absurd (hread.mp heq).2.2 (by decide)⟩

end Rendering

end MeasureSql
