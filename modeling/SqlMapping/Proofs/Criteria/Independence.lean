import Mathlib.Data.List.Forall2
import SqlMapping.Criteria.Query
import SqlMapping.Dialect.BuiltIn
import SqlMapping.Proofs.Criteria.Registration

/-!
# Texts that do not depend on data

Rendered with parameters, an expression keeps its data out of the text. `Expr.blank` takes the data out of an
expression, and rendering it does the same to the text, the names of the parameters and the errors as
rendering the expression itself (`sameFace_render`). So two expressions that differ in their data alone are
rendered alike (`text_independent_of_data`).
-/

namespace SqlMapping

/-! ## Expressions without their data -/

mutual

/-- The expression with other data in its place: what a literal other than null holds, and the pattern of a
match with its mode. -/
def Expr.blank : Expr → Expr
  | .literal v => .literal (if v.isNull then .null else .bool true)
  | .like expr _ _ escape ignoreCase => .like (Expr.blank expr) "" .exact escape ignoreCase
  | .field name table => .field name table
  | .plain sql => .plain sql
  | .compare left op right => .compare (Expr.blank left) op (Expr.blank right)
  | .logical left op right => .logical (Expr.blank left) op (Expr.blank right)
  | .junction op exprs => .junction op (Expr.blankAll exprs)
  | .not expr => .not (Expr.blank expr)
  | .isNull expr negated => .isNull (Expr.blank expr) negated
  | .between expr low high => .between (Expr.blank expr) (Expr.blank low) (Expr.blank high)
  | .inList expr values negated => .inList (Expr.blank expr) (Expr.blankAll values) negated
  | .function name args => .function name (Expr.blankAll args)
  | .aggregate name column => .aggregate name column
  | .compareFields left right op => .compareFields left right op
  | .select expr label distinct => .select (Expr.blank expr) label distinct
  | .order expr ascending => .order (Expr.blank expr) ascending

def Expr.blankAll : List Expr → List Expr
  | [] => []
  | e :: es => Expr.blank e :: Expr.blankAll es

end

def Expr.SameForm (e e' : Expr) : Prop := e.blank = e'.blank

theorem Expr.isNullLiteral_blank (e : Expr) : e.blank.isNullLiteral = e.isNullLiteral := by
  cases e with
  | literal v => cases v <;> rfl
  | _ => simp [Expr.blank, Expr.isNullLiteral]

theorem RenderContext.nullComparison?_blank (op : CompareOp) (e : Expr) :
    nullComparison? op e.blank = nullComparison? op e := by
  simp only [nullComparison?, Expr.isNullLiteral_blank]

/-! ## Computations that look the same -/

def ParameterSet.SameNames (ps ps' : ParameterSet) : Prop := ps.names = ps'.names ∧ ps.next = ps'.next

theorem ParameterSet.SameNames.register {ps ps' : ParameterSet} (h : ps.SameNames ps') (v w : Value) :
    (ps.register v).1 = (ps'.register w).1 ∧ (ps.register v).2.SameNames (ps'.register w).2 := by
  obtain ⟨hnames, hnext⟩ := h
  have hentries : ps.entries.map Prod.fst = ps'.entries.map Prod.fst := hnames
  by_cases hdup : generatedName ps'.next ∈ ps'.entries.map Prod.fst
  · simp [ParameterSet.register, registerNamed, SameNames, names, hnext, hentries, hdup]
  · simp [ParameterSet.register, registerNamed, SameNames, names, hnext, hentries, hdup]

/-- From parameters of the same names, the computations give the same result or error, and leave parameters of
the same names. -/
def SameFace {α : Type} (r r' : Render α) : Prop :=
  ∀ ps ps' : ParameterSet, ps.SameNames ps' → (r ps).1 = (r' ps').1 ∧ (r ps).2.SameNames (r' ps').2

section
variable {α β : Type}

theorem SameFace.symm {r r' : Render α} (h : SameFace r r') : SameFace r' r := by
  intro ps ps' hps
  obtain ⟨hresult, hnames, hnext⟩ := h ps' ps ⟨hps.1.symm, hps.2.symm⟩
  exact ⟨hresult.symm, hnames.symm, hnext.symm⟩

theorem SameFace.trans {r r' r'' : Render α} (h : SameFace r r') (h' : SameFace r' r'') : SameFace r r'' := by
  intro ps ps'' hps
  obtain ⟨hresult, hnames, hnext⟩ := h ps ps ⟨rfl, rfl⟩
  obtain ⟨hresult', hnames', hnext'⟩ := h' ps ps'' hps
  exact ⟨hresult.trans hresult', hnames.trans hnames', hnext.trans hnext'⟩

theorem sameFace_pure (a : α) : SameFace (pure a) (pure a) := fun _ _ hps => ⟨rfl, hps⟩

theorem sameFace_ofExcept (r : Except Error α) : SameFace (Render.ofExcept r) (Render.ofExcept r) :=
  fun _ _ hps => ⟨rfl, hps⟩

theorem SameFace.bind {r r' : Render α} {f f' : α → Render β} (hr : SameFace r r')
    (hf : ∀ a, SameFace (f a) (f' a)) : SameFace (r >>= f) (r' >>= f') := by
  intro ps ps' hps
  obtain ⟨hresult, hsets⟩ := hr ps ps' hps
  rw [Render.bind_apply, Render.bind_apply]
  -- from here on the two runs are one result with parameters of the same names
  generalize r ps = x, r' ps' = y at hresult hsets
  obtain ⟨result, qs⟩ := x
  obtain ⟨result', qs'⟩ := y
  obtain rfl : result = result' := hresult
  cases result with
  | error e => exact ⟨rfl, hsets⟩
  | ok a => exact hf a qs qs' hsets

/-- Started without parameters, the computations make queries of the same text and names, or both fail alike. -/
theorem SameFace.toQuery {r r' : Render String} (h : SameFace r r') :
    r.toQuery.map (fun q => (q.sql, q.params.names)) = r'.toQuery.map (fun q => (q.sql, q.params.names)) := by
  obtain ⟨hresult, hsets⟩ := h {} {} ⟨rfl, rfl⟩
  unfold Render.toQuery
  generalize r {} = x, r' {} = y at hresult hsets
  obtain ⟨result, ps⟩ := x
  obtain ⟨result', ps'⟩ := y
  obtain rfl : result = result' := hresult
  cases result with
  | error e => rfl
  | ok sql => exact congrArg (fun names => Except.ok (sql, names)) hsets.1

theorem SameFace.map {r r' : Render α} (hr : SameFace r r') (f : α → β) :
    SameFace (r >>= fun a => pure (f a)) (r' >>= fun a => pure (f a)) :=
  hr.bind fun a => sameFace_pure (f a)

end

section
variable {ctx : RenderContext}

theorem sameFace_value (hctx : ctx.parameterized = true) {v w : Value} (h : v.isNull = w.isNull) :
    SameFace (ctx.value v) (ctx.value w) := by
  unfold RenderContext.value
  rw [hctx, h]
  split
  · exact sameFace_pure _
  · have hregister : SameFace (Render.register v) (Render.register w) := fun ps ps' hps => hps.register v w
    exact hregister.map ctx.dialect.parameter

mutual

theorem sameFace_render (hctx : ctx.parameterized = true) : ∀ e : Expr,
    SameFace (e.render ctx) (e.blank.render ctx)
  | .field .. | .plain _ | .compareFields .. => by
    simp only [Expr.blank, Expr.render]; exact sameFace_pure _
  | .literal v => by
    simp only [Expr.blank, Expr.render]
    exact sameFace_value hctx (by cases h : v.isNull <;> rfl)
  | .compare left op right => by
    simp only [Expr.blank, Expr.render, RenderContext.nullComparison?_blank]
    refine (sameFace_render hctx left).bind fun l => ?_
    -- whether it is a null test is not data: both sides take the same branch
    cases RenderContext.nullComparison? op right with
    | some negated => exact sameFace_pure _
    | none => exact (sameFace_render hctx right).map _
  | .logical left op right => by
    simp only [Expr.blank, Expr.render]
    exact (sameFace_render hctx left).bind fun _ => (sameFace_render hctx right).map _
  | .junction op [] => by
    simp only [Expr.blank, Expr.blankAll, Expr.render]; exact sameFace_pure _
  | .junction op (e :: es) => by
    simp only [Expr.blank, Expr.blankAll, Expr.render]
    exact (sameFace_render hctx e).bind fun _ => (sameFace_renderAll hctx es).map _
  | .not expr | .isNull expr _ | .select expr .. | .order expr _ => by
    simp only [Expr.blank, Expr.render]; exact (sameFace_render hctx expr).map _
  | .between expr low high => by
    simp only [Expr.blank, Expr.render]
    refine (sameFace_render hctx expr).bind fun _ => ?_
    exact (sameFace_render hctx low).bind fun _ => (sameFace_render hctx high).map _
  | .inList expr [] negated => by
    simp only [Expr.blank, Expr.blankAll, Expr.render]; exact sameFace_pure _
  | .inList expr (v :: vs) negated => by
    simp only [Expr.blank, Expr.blankAll, Expr.render]
    refine (sameFace_render hctx expr).bind fun _ => ?_
    exact (sameFace_render hctx v).bind fun _ => (sameFace_renderAll hctx vs).map _
  | .like expr pattern mode escape ignoreCase => by
    simp only [Expr.blank, Expr.render]
    refine (sameFace_render hctx expr).bind fun operand => ?_
    refine (sameFace_value hctx (by rfl)).bind fun p => ?_
    exact (sameFace_ofExcept _).map _
  | .function name args => by
    simp only [Expr.blank, Expr.render]
    exact (sameFace_renderAll hctx args).bind fun _ => sameFace_ofExcept _
  | .aggregate name column => by
    simp only [Expr.blank, Expr.render]; exact sameFace_ofExcept _

theorem sameFace_renderAll (hctx : ctx.parameterized = true) : ∀ es : List Expr,
    SameFace (Expr.renderAll ctx es) (Expr.renderAll ctx (Expr.blankAll es))
  | [] => by
    simp only [Expr.blankAll, Expr.renderAll]; exact sameFace_pure _
  | e :: es => by
    simp only [Expr.blankAll, Expr.renderAll]
    exact (sameFace_render hctx e).bind fun _ => (sameFace_renderAll hctx es).map _

end

theorem sameFace_of_sameForm (hctx : ctx.parameterized = true) {e e' : Expr} (h : e.SameForm e') :
    SameFace (e.render ctx) (e'.render ctx) := by
  have hblank := sameFace_render hctx e
  rw [h] at hblank
  exact hblank.trans (sameFace_render hctx e').symm

theorem sameNames_pass (hctx : ctx.parameterized = true) {es es' : List Expr}
    (h : List.Forall₂ Expr.SameForm es es') : (ctx.pass es).SameNames (ctx.pass es') := by
  suffices hfrom : ∀ ps ps' : ParameterSet, ps.SameNames ps' →
      (es.foldl (fun ps e => (e.render ctx ps).2) ps).SameNames
        (es'.foldl (fun ps e => (e.render ctx ps).2) ps') from hfrom {} {} ⟨rfl, rfl⟩
  induction h with
  | nil => exact fun ps ps' hps => hps
  | cons he _ ih => exact fun ps ps' hps => ih _ _ (sameFace_of_sameForm hctx he ps ps' hps).2

end

/-- Rendered with parameters, expressions that differ in their data alone give the same text and parameters of
the same names, or the same error, also after other such expressions of one pass. -/
theorem text_independent_of_data (dialect : Dialect) (table : Option Table) (before before' : List Expr)
    (e e' : Expr) (hbefore : List.Forall₂ Expr.SameForm before before') (h : e.SameForm e') :
    let ctx : RenderContext := { dialect, table, parameterized := true }
    let rendered := e.render ctx (ctx.pass before)
    let rendered' := e'.render ctx (ctx.pass before')
    rendered.1 = rendered'.1 ∧ rendered.2.names = rendered'.2.names ∧
      (e.toQuery ctx).map (fun q => (q.sql, q.params.names)) =
        (e'.toQuery ctx).map (fun q => (q.sql, q.params.names)) := by
  intro ctx
  have hctx : ctx.parameterized = true := rfl
  have hface : SameFace (e.render ctx) (e'.render ctx) := sameFace_of_sameForm hctx h
  have hpass : (ctx.pass before).SameNames (ctx.pass before') := sameNames_pass hctx hbefore
  obtain ⟨hresult, hsets⟩ := hface _ _ hpass
  exact ⟨hresult, hsets.1, hface.toQuery⟩

/-- A number and a text with a quote in it, after matches of two patterns, are rendered to one text. -/
theorem quotes_stay_out_of_text :
    let starts : Expr := .like (.field "name" none) "A" .startsWith none true
    let contains : Expr := .like (.field "name" none) "' or 1=1 --" .contains none true
    let number : Expr := .compare (.field "id" none) .eq (.literal (.int64 7))
    let text : Expr := .compare (.field "id" none) .eq (.literal (.string "' or 1=1 --"))
    let ctx : RenderContext := { dialect := Dialect.ansi }
    List.Forall₂ Expr.SameForm [starts] [contains] ∧ number.SameForm text ∧
      (number.render ctx (ctx.pass [starts])).1 = .ok "id = :p_1" ∧
      (text.render ctx (ctx.pass [contains])).1 = .ok "id = :p_1" := by
  intro starts contains number text ctx
  have hbefore : List.Forall₂ Expr.SameForm [starts] [contains] := .cons rfl .nil
  have hform : number.SameForm text := rfl
  have hnumber : (number.render ctx (ctx.pass [starts])).1 = .ok "id = :p_1" := by decide
  obtain ⟨hresult, _, _⟩ :=
    text_independent_of_data Dialect.ansi none [starts] [contains] number text hbefore hform
  exact ⟨hbefore, hform, hnumber, hresult.symm.trans hnumber⟩

end SqlMapping
