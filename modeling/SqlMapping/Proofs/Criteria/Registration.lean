import SqlMapping.Criteria.Render
import Mathlib.Data.List.Induction
import Mathlib.Data.List.Nodup
import Std.Data.String.ToNat

/-!
# What a rendering registers

The slots of an expression are the values of its literals and the patterns of its matches, from left
to right. `render_pass_registers`: on one pass over any expressions, each rendering that succeeds
registers exactly the slots of its expression, under the next generated names.
-/

namespace SqlMapping

theorem generatedName_inj {m n : Nat} : generatedName m = generatedName n ↔ m = n := by
  simp [generatedName, Nat.repr_inj]

namespace ParameterSet

def ofValues (vs : List Value) : ParameterSet :=
  ⟨vs.mapIdx fun i v => (generatedName i, v), vs.length⟩

theorem ofValues_nil : ofValues [] = {} := rfl

theorem entries_prefix (vs ws : List Value) : (ofValues vs).entries <+: (ofValues (vs ++ ws)).entries := by
  simp only [ofValues, List.mapIdx_append]
  exact List.prefix_append _ _

theorem values_ofValues (vs : List Value) : (ofValues vs).entries.map Prod.snd = vs := by
  apply List.ext_getElem <;> simp [ofValues]

theorem names_ofValues (vs : List Value) :
    (ofValues vs).names = (List.range vs.length).map generatedName := by
  apply List.ext_getElem <;> simp [names, ofValues]

theorem nodup_names_ofValues (vs : List Value) : (ofValues vs).names.Nodup := by
  rw [names_ofValues]
  exact List.nodup_range.map fun _ _ h => generatedName_inj.mp h

theorem get?_eq_some_iff {ps : ParameterSet} (h : ps.names.Nodup) {name : String} {v : Value} :
    ps.get? name = some v ↔ (name, v) ∈ ps.entries := by
  simp only [get?, Option.map_eq_some_iff]
  refine ⟨?_, ?_⟩
  · rintro ⟨⟨name', v'⟩, hfind, rfl⟩
    have hname : name' = name := by simpa using List.find?_some hfind
    exact hname ▸ List.mem_of_find?_eq_some hfind
  · intro hmem
    cases hfind : ps.entries.find? fun e => e.1 == name with
    | none => simpa using List.find?_eq_none.mp hfind _ hmem
    | some e =>
      have hname : e.1 = name := by simpa using List.find?_some hfind
      have he : e = (name, v) := List.inj_on_of_nodup_map h (List.mem_of_find?_eq_some hfind) hmem hname
      exact ⟨e, rfl, by rw [he]⟩

theorem get?_ofValues {vs : List Value} {name : String} {v : Value} :
    (ofValues vs).get? name = some v ↔ (name, v) ∈ (ofValues vs).entries :=
  get?_eq_some_iff (nodup_names_ofValues vs)

theorem register_ofValues (vs : List Value) (v : Value) :
    (ofValues vs).register v = (.ok (generatedName vs.length), ofValues (vs ++ [v])) := by
  have hnew : generatedName vs.length ∉ (ofValues vs).names := by
    rw [names_ofValues]
    simp [generatedName_inj]
  have hnamed : registerNamed { ofValues vs with next := vs.length + 1 } (generatedName vs.length) v
      = (.ok (), ofValues (vs ++ [v])) := by
    simp only [registerNamed, names, List.contains_iff_mem] at hnew ⊢
    rw [if_neg hnew]
    simp [ofValues]
  simp only [register]
  rw [show (ofValues vs).next = vs.length from rfl, hnamed]

end ParameterSet

open ParameterSet (ofValues)

/-! ## Slots -/

mutual

/-- The values that rendering an expression registers. A list of no values is decided without
rendering anything. -/
def Expr.slots : Expr → List Value
  | .literal v => if v.isNull then [] else [v]
  | .field .. | .plain _ | .aggregate .. | .compareFields .. => []
  | .compare left _ right | .logical left _ right => Expr.slots left ++ Expr.slots right
  | .junction _ exprs => Expr.slotsAll exprs
  | .not expr | .isNull expr _ | .select expr .. | .order expr _ => Expr.slots expr
  | .between expr low high => Expr.slots expr ++ (Expr.slots low ++ Expr.slots high)
  | .inList expr values _ => if values.isEmpty then [] else Expr.slots expr ++ Expr.slotsAll values
  | .like expr pattern mode .. => Expr.slots expr ++ [.string (mode.decorate pattern)]
  | .function _ args => Expr.slotsAll args

def Expr.slotsAll : List Expr → List Value
  | [] => []
  | e :: es => Expr.slots e ++ Expr.slotsAll es

end

theorem RenderContext.isNullLiteral_of_nullComparison? {op : CompareOp} {right : Expr} {negated : Bool}
    (h : nullComparison? op right = some negated) : right.isNullLiteral = true := by
  simp only [nullComparison?] at h
  split at h
  · assumption
  · cases h

theorem Expr.slots_of_isNullLiteral {e : Expr} (h : e.isNullLiteral = true) : e.slots = [] := by
  cases e <;> simp_all [Expr.isNullLiteral, Expr.slots]

/-! ## Laws of renderings -/

def Unrepeated {α : Type} (r : Except Error α) : Prop :=
  ∀ name, r ≠ .error (.duplicateParameter name)

theorem TemplatePart.fillAll_unrepeated (template : String) (args : List String) :
    ∀ ps : List TemplatePart, Unrepeated (fillAll template args ps)
  | [] => by simp [Unrepeated, fillAll]
  | p :: ps => by
    have ih := fillAll_unrepeated template args ps
    have hp : Unrepeated (p.fill template args) := by
      intro name
      cases p with
      | char c => simp [fill]
      | slot digits =>
        simp only [fill]; split
        · simp
        · split
          · simp
          · split <;> simp
    intro name
    simp only [fillAll]
    cases h : p.fill template args with
    | error e => simpa [h] using hp name
    | ok text =>
      cases h' : fillAll template args ps with
      | error e => simpa [h'] using ih name
      | ok rest => simp

theorem FunctionForm.apply_unrepeated (form : FunctionForm) (args : List String) :
    Unrepeated (form.apply args) := by
  intro name
  cases form with
  | standard f => simp [apply]
  | noArguments f parens => simp only [apply]; split <;> simp
  | template text => exact TemplatePart.fillAll_unrepeated text args _ name
  | variadic before separator after => simp [apply]

section
variable (ctx : RenderContext)

theorem RenderContext.call_unrepeated (name : String) (args : List String) :
    Unrepeated (ctx.call name args) := by
  simp only [call]; split
  · simp [Unrepeated]
  · exact FunctionForm.apply_unrepeated _ _

theorem RenderContext.likeText_unrepeated (operand pattern : String) (ignoreCase : Bool) :
    Unrepeated (ctx.likeText operand pattern ignoreCase) := by
  simp only [likeText]; split
  · simp [Unrepeated]
  · split
    · simp [Unrepeated]
    · have hoperand := ctx.call_unrepeated "lower" [operand]
      have hpattern := ctx.call_unrepeated "lower" [pattern]
      cases h : ctx.call "lower" [operand] with
      | error e => intro name; simpa [h] using hoperand name
      | ok lowered =>
        cases h' : ctx.call "lower" [pattern] with
        | error e => intro name; simpa [h'] using hpattern name
        | ok loweredPattern => simp [Unrepeated]

/-- A property of computations, with the values they may register, that holds of the steps a rendering
is made of and of one step after another. -/
structure RenderLaw (P : ∀ {α : Type}, Render α → List Value → Prop) : Prop where
  pure : ∀ {α : Type} (a : α), P (pure a) []
  bind : ∀ {α β : Type} {r : Render α} {f : α → Render β} {vs ws : List Value},
    P r vs → (∀ a, P (f a) ws) → P (r >>= f) (vs ++ ws)
  ofExcept : ∀ {α : Type} {r : Except Error α}, Unrepeated r → P (Render.ofExcept r) []
  value : ∀ v, P (ctx.value v) (if v.isNull then [] else [v])

end

namespace RenderLaw

variable {ctx : RenderContext} {P : ∀ {α : Type}, Render α → List Value → Prop} (law : RenderLaw ctx P)
include law

theorem map {α β : Type} {r : Render α} {vs : List Value} (h : P r vs) (f : α → β) :
    P (r >>= fun a => Pure.pure (f a)) vs := by
  have := law.bind h fun a => law.pure (f a)
  rwa [List.append_nil] at this

mutual

theorem render : ∀ e : Expr, P (e.render ctx) e.slots
  | .field .. | .plain _ | .compareFields .. => by
    simp only [Expr.render, Expr.slots]; exact law.pure _
  | .literal v => by
    simp only [Expr.render, Expr.slots]; exact law.value v
  | .compare left op right => by
    simp only [Expr.render, Expr.slots]
    refine law.bind (render left) fun l => ?_
    cases h : RenderContext.nullComparison? op right with
    | some negated =>
      rw [Expr.slots_of_isNullLiteral (RenderContext.isNullLiteral_of_nullComparison? h)]
      exact law.pure _
    | none => exact law.map (render right) _
  | .logical left op right => by
    simp only [Expr.render, Expr.slots]
    exact law.bind (render left) fun l => law.map (render right) _
  | .junction op [] => by
    simp only [Expr.render, Expr.slots, Expr.slotsAll]; exact law.pure _
  | .junction op (e :: es) => by
    simp only [Expr.render, Expr.slots, Expr.slotsAll]
    exact law.bind (render e) fun first => law.map (renderAll es) _
  | .not expr | .isNull expr _ | .select expr .. | .order expr _ => by
    simp only [Expr.render, Expr.slots]; exact law.map (render expr) _
  | .between expr low high => by
    simp only [Expr.render, Expr.slots]
    exact law.bind (render expr) fun _ => law.bind (render low) fun _ => law.map (render high) _
  | .inList expr [] negated => by
    simp only [Expr.render, Expr.slots]; exact law.pure _
  | .inList expr (v :: vs) negated => by
    simp only [Expr.render, Expr.slots, Expr.slotsAll]
    exact law.bind (render expr) fun _ => law.bind (render v) fun _ => law.map (renderAll vs) _
  | .like expr pattern mode escape ignoreCase => by
    simp only [Expr.render, Expr.slots]
    refine law.bind (render expr) fun operand => ?_
    have hpattern := law.value (.string (mode.decorate pattern))
    refine law.bind hpattern fun p => ?_
    exact law.map (law.ofExcept (ctx.likeText_unrepeated operand p ignoreCase)) _
  | .function name args => by
    simp only [Expr.render, Expr.slots]
    have := law.bind (renderAll args) fun rendered => law.ofExcept (ctx.call_unrepeated name rendered)
    rwa [List.append_nil] at this
  | .aggregate name column => by
    simp only [Expr.render, Expr.slots]; exact law.ofExcept (ctx.call_unrepeated name _)

theorem renderAll : ∀ es : List Expr, P (Expr.renderAll ctx es) (Expr.slotsAll es)
  | [] => by simp only [Expr.renderAll, Expr.slotsAll]; exact law.pure _
  | e :: es => by
    simp only [Expr.renderAll, Expr.slotsAll]
    exact law.bind (render e) fun first => law.map (renderAll es) _

end

end RenderLaw

/-! ## Passes -/

/-- After generated parameters, the computation registers exactly `ws` if it succeeds, and a first part
of `ws` if it fails. -/
def Registers {α : Type} (r : Render α) (ws : List Value) : Prop :=
  ∀ vs, (∃ a, r (ofValues vs) = (.ok a, ofValues (vs ++ ws))) ∨
    ∃ e ws', Unrepeated (.error e : Except Error α) ∧ ws' <+: ws ∧
      r (ofValues vs) = (.error e, ofValues (vs ++ ws'))

theorem registers_bind {α β : Type} {r : Render α} {f : α → Render β} {ws ws' : List Value}
    (hr : Registers r ws) (hf : ∀ a, Registers (f a) ws') : Registers (r >>= f) (ws ++ ws') := by
  intro vs
  rw [Render.bind_apply]
  obtain ⟨a, ha⟩ | ⟨e, us, he, hus, hr⟩ := hr vs
  · rw [ha]
    obtain ⟨b, hb⟩ | ⟨e, us, he, hus, hb⟩ := hf a (vs ++ ws)
    · exact .inl ⟨b, by simpa [List.append_assoc] using hb⟩
    · refine .inr ⟨e, ws ++ us, ?_, (List.prefix_append_right_inj ws).mpr hus, ?_⟩
      · simpa [Unrepeated] using he
      · simpa [List.append_assoc] using hb
  · rw [hr]
    refine .inr ⟨e, us, ?_, hus.trans (List.prefix_append ws ws'), rfl⟩
    simpa [Unrepeated] using he

theorem registersLaw {ctx : RenderContext} (hctx : ctx.parameterized = true) : RenderLaw ctx Registers where
  pure a vs := .inl ⟨a, by rw [List.append_nil]; rfl⟩
  bind := registers_bind
  ofExcept {α r} hr vs := by
    rw [List.append_nil]
    cases r with
    | ok a => exact .inl ⟨a, rfl⟩
    | error e => exact .inr ⟨e, [], hr, List.prefix_refl _, by rw [List.append_nil]; rfl⟩
  value v vs := by
    refine .inl ?_
    simp only [RenderContext.value, hctx]
    split
    · exact ⟨"null", by rw [List.append_nil]; rfl⟩
    · refine ⟨ctx.dialect.parameter (generatedName vs.length), ?_⟩
      simp only [if_true, Render.bind_apply, Render.register, ParameterSet.register_ofValues]
      rfl

def Silent {α : Type} (r : Render α) (_ : List Value) : Prop := ∀ ps, (r ps).2 = ps

theorem silentLaw {ctx : RenderContext} (hctx : ctx.parameterized = false) : RenderLaw ctx Silent where
  pure _ _ := rfl
  bind {α β r f vs ws} hr hf ps := by
    have hps := hr ps
    rw [Render.bind_apply]
    cases h : r ps with
    | mk result ps' =>
      rw [h] at hps
      cases result with
      | ok a => exact (hf a ps').trans hps
      | error e => exact hps
  ofExcept _ _ := rfl
  value v ps := by
    simp only [RenderContext.value, hctx]
    split <;> rfl

def RenderContext.pass (ctx : RenderContext) (es : List Expr) : ParameterSet :=
  es.foldl (fun ps e => (e.render ctx ps).2) {}

theorem pass_snoc (ctx : RenderContext) (es : List Expr) (e : Expr) :
    ctx.pass (es ++ [e]) = (e.render ctx (ctx.pass es)).2 := by
  simp [RenderContext.pass]

theorem pass_eq_ofValues {ctx : RenderContext} (hctx : ctx.parameterized = true) (es : List Expr) :
    ∃ vs, ctx.pass es = ofValues vs := by
  induction es using List.reverseRecOn with
  | nil => exact ⟨[], rfl⟩
  | append_singleton es e ih =>
    obtain ⟨vs, hvs⟩ := ih
    rw [pass_snoc, hvs]
    obtain ⟨a, ha⟩ | ⟨_, ws, _, _, hr⟩ := (registersLaw hctx).render e vs
    · exact ⟨_, by rw [ha]⟩
    · exact ⟨_, by rw [hr]⟩

theorem pass_of_inline {ctx : RenderContext} (hctx : ctx.parameterized = false) (es : List Expr) :
    ctx.pass es = {} := by
  induction es using List.reverseRecOn with
  | nil => rfl
  | append_singleton es e ih => rw [pass_snoc, ih, (silentLaw hctx).render e]

/-- After any expressions of a pass, rendering one more never repeats a name, keeps what was registered,
names all parameters by their numbers, and appends exactly its slots, or a first part of them when it
fails. Without parameters nothing is registered. -/
theorem render_pass_registers (dialect : Dialect) (table : Option Table) (before : List Expr) (e : Expr) :
    let ctx : RenderContext := { dialect, table, parameterized := true }
    let inline : RenderContext := { dialect, table, parameterized := false }
    let ps := ctx.pass before
    let (result, ps') := e.render ctx ps
    (∀ name, result ≠ .error (.duplicateParameter name)) ∧
      ps.entries <+: ps'.entries ∧
      ps'.names = (List.range ps'.size).map (fun i => "p_" ++ toString i) ∧
      (∃ ws, ws <+: e.slots ∧ ps'.entries.map Prod.snd = ps.entries.map Prod.snd ++ ws ∧
        ((∃ sql, result = .ok sql) → ws = e.slots)) ∧
      (e.render inline (inline.pass before)).2 = {} := by
  intro ctx inline ps
  obtain ⟨vs, hvs⟩ := pass_eq_ofValues (show ctx.parameterized = true from rfl) before
  have hps : ps = ofValues vs := hvs
  have hinline : (e.render inline (inline.pass before)).2 = {} := by
    rw [pass_of_inline rfl]
    exact (silentLaw rfl).render e {}
  have hnames : ∀ us, (ofValues us).names = (List.range (ofValues us).size).map fun i => "p_" ++ toString i := by
    intro us
    rw [ParameterSet.names_ofValues]
    simp [ParameterSet.size, ofValues, generatedName]
  have hvalues : ∀ ws, (ofValues (vs ++ ws)).entries.map Prod.snd = (ofValues vs).entries.map Prod.snd ++ ws := by
    intro ws
    simp [ParameterSet.values_ofValues]
  rw [hps]
  obtain ⟨a, ha⟩ | ⟨err, ws, herr, hws, hr⟩ := (registersLaw (show ctx.parameterized = true from rfl)).render e vs
  · rw [ha]
    refine ⟨by simp, ParameterSet.entries_prefix vs _, hnames _, ?_, hinline⟩
    exact ⟨e.slots, List.prefix_refl _, hvalues _, fun _ => rfl⟩
  · rw [hr]
    refine ⟨herr, ParameterSet.entries_prefix vs _, hnames _, ⟨ws, hws, hvalues _, ?_⟩, hinline⟩
    rintro ⟨sql, h⟩
    cases h

end SqlMapping
