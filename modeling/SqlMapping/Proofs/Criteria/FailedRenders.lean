import SqlMapping.Proofs.Criteria.References
import SqlMapping.Proofs.Dialect.Templates

/-!
# Renderings that fail

A rendering goes through an expression from left to right. It registers or spells out the values and calls each
function when its arguments are rendered, and the first of these steps that fails ends it. What was registered by then
stays registered. `failed_render_keeps_registered`: the parameters behind a rendering that fails are those before it and
those of the values in front of the step that failed.
-/

namespace SqlMapping

open ParameterSet (ofValues)

/-! ## Steps of a rendering -/

/-- What can register a parameter or fail. -/
inductive RenderStep where
  | value (v : Value)
  /-- A call with so many arguments. -/
  | call (name : String) (count : Nat)

mutual

/-- The steps of a rendering that does not fail. -/
def Expr.steps (d : Dialect) : Expr → List RenderStep
  | .literal v => if v.isNull then [] else [.value v]
  | .field .. | .plain _ | .compareFields .. => []
  | .compare left _ right | .logical left _ right => Expr.steps d left ++ Expr.steps d right
  | .junction _ exprs => Expr.stepsAll d exprs
  | .not expr | .isNull expr _ | .select expr .. | .order expr _ => Expr.steps d expr
  | .between expr low high => Expr.steps d expr ++ (Expr.steps d low ++ Expr.steps d high)
  | .inList expr values _ => if values.isEmpty then [] else Expr.steps d expr ++ Expr.stepsAll d values
  | .like expr pattern mode _ ignoreCase =>
    Expr.steps d expr ++ (.value (.string (mode.decorate pattern)) ::
      if ignoreCase && !d.ilike then [.call "lower" 1, .call "lower" 1] else [])
  | .function name args => Expr.stepsAll d args ++ [.call name args.length]
  | .aggregate name _ => [.call name 1]

def Expr.stepsAll (d : Dialect) : List Expr → List RenderStep
  | [] => []
  | e :: es => Expr.steps d e ++ Expr.stepsAll d es

end

/-! ## Failures of calls -/

def Dialect.callError? (d : Dialect) (name : String) (count : Nat) : Option Error :=
  match d.function? name with
  | none => some (.unsupportedFunction name d.name)
  | some form => form.error? count

theorem RenderContext.endsWith_call (ctx : RenderContext) (name : String) (args : List String) :
    EndsWith (ctx.call name args) (ctx.dialect.callError? name args.length) := by
  unfold call Dialect.callError?
  cases ctx.dialect.function? name with
  | none => rfl
  | some form => exact form.endsWith_apply args

/-! ## What steps do -/

namespace RenderStep

variable (ctx : RenderContext)

/-- Why the step fails, if it does. A value that is registered needs no literal. -/
def error? : RenderStep → Option Error
  | .value v =>
    if ctx.parameterized then none
    else match ctx.dialect.literal v with
      | .ok _ => none
      | .error e => some e
  | .call name count => ctx.dialect.callError? name count

def registered : RenderStep → List Value
  | .value v => if ctx.parameterized then [v] else []
  | .call .. => []

/-- What is registered up to the first step that fails, and why that fails. -/
def outcome : List RenderStep → List Value × Option Error
  | [] => ([], none)
  | step :: steps =>
    match step.error? ctx with
    | some e => ([], some e)
    | none => (step.registered ctx ++ (outcome steps).1, (outcome steps).2)

variable {ctx} {steps steps' : List RenderStep} {vs : List Value} {e : Error}

theorem outcome_append_of_error (h : outcome ctx steps = (vs, some e)) :
    outcome ctx (steps ++ steps') = (vs, some e) := by
  induction steps generalizing vs with
  | nil => cases h
  | cons step steps ih =>
    rw [outcome] at h
    rw [List.cons_append, outcome]
    split at h
    · exact h
    · obtain ⟨rfl, herror⟩ := Prod.mk.inj h
      rw [ih (Prod.ext rfl herror)]

theorem outcome_append_of_ok (h : outcome ctx steps = (vs, none)) :
    outcome ctx (steps ++ steps') = (vs ++ (outcome ctx steps').1, (outcome ctx steps').2) := by
  induction steps generalizing vs with
  | nil =>
    cases h
    rfl
  | cons step steps ih =>
    rw [outcome] at h
    rw [List.cons_append, outcome]
    split at h
    · cases h
    · obtain ⟨rfl, herror⟩ := Prod.mk.inj h
      rw [ih (Prod.ext rfl herror), List.append_assoc]

/-- Where steps fail, all steps in front of one that fails are done. -/
theorem exists_of_outcome (h : outcome ctx steps = (vs, some e)) :
    ∃ done failing rest, steps = done ++ failing :: rest ∧ (∀ step ∈ done, step.error? ctx = none) ∧
      failing.error? ctx = some e ∧ vs = done.flatMap (registered ctx) := by
  induction steps generalizing vs with
  | nil => cases h
  | cons step steps ih =>
    rw [outcome] at h
    split at h
    · rename_i e' herror
      obtain ⟨rfl, heq⟩ := Prod.mk.inj h
      exact ⟨[], step, steps, rfl, by simp, heq ▸ herror, rfl⟩
    · rename_i hstep
      obtain ⟨rfl, herror⟩ := Prod.mk.inj h
      obtain ⟨done, failing, rest, rfl, hdone, hfailing, hvs⟩ := ih (Prod.ext rfl herror)
      refine ⟨step :: done, failing, rest, rfl, List.forall_mem_cons.mpr ⟨hstep, hdone⟩, hfailing, ?_⟩
      simp only [hvs, List.flatMap_cons]

end RenderStep

open RenderStep (outcome)

/-! ## Renderings as steps -/

section
variable (ctx : RenderContext) {α β : Type}

/-- After generated parameters, the computation registers what its steps do and ends as they end. -/
def Performs (r : Render α) (steps : List RenderStep) (Q : α → Prop) : Prop :=
  ∀ vs, ∃ result, r (ofValues vs) = (result, ofValues (vs ++ (outcome ctx steps).1)) ∧
    EndsAs Q result (outcome ctx steps).2

variable {ctx} {Q : α → Prop}

theorem performs_pure {a : α} (h : Q a) : Performs ctx (pure a) [] Q := by
  intro vs
  exact ⟨.ok a, by rw [outcome, List.append_nil]; rfl, a, rfl, h⟩

theorem performs_ofExcept {r : Except Error α} {steps : List RenderStep} (hnone : (outcome ctx steps).1 = [])
    (h : EndsAs Q r (outcome ctx steps).2) : Performs ctx (Render.ofExcept r) steps Q := by
  intro vs
  exact ⟨r, by rw [hnone, List.append_nil]; rfl, h⟩

theorem Performs.bind {Q' : β → Prop} {r : Render α} {f : α → Render β} {steps steps' : List RenderStep}
    (hr : Performs ctx r steps Q) (hf : ∀ a, Q a → Performs ctx (f a) steps' Q') :
    Performs ctx (r >>= f) (steps ++ steps') Q' := by
  intro vs
  rw [Render.bind_apply]
  obtain ⟨result, hresult, hend⟩ := hr vs
  rw [hresult]
  obtain ⟨us, e, houtcome⟩ : ∃ us e, outcome ctx steps = (us, e) := ⟨_, _, rfl⟩
  rw [houtcome] at hend ⊢
  cases e with
  | some e =>
    rw [RenderStep.outcome_append_of_error houtcome]
    obtain rfl : result = .error e := hend
    exact ⟨.error e, rfl, rfl⟩
  | none =>
    rw [RenderStep.outcome_append_of_ok houtcome]
    obtain ⟨a, rfl, ha⟩ := hend
    obtain ⟨result', hresult', hend'⟩ := hf a ha (vs ++ us)
    exact ⟨result', by rw [← List.append_assoc]; exact hresult', hend'⟩

theorem Performs.map {Q' : β → Prop} {r : Render α} {steps : List RenderStep} (hr : Performs ctx r steps Q)
    {f : α → β} (hf : ∀ a, Q a → Q' (f a)) : Performs ctx (r >>= fun a => pure (f a)) steps Q' := by
  have h : Performs ctx (r >>= fun a => pure (f a)) (steps ++ []) Q' := hr.bind fun a ha => performs_pure (hf a ha)
  rwa [List.append_nil] at h

end

abbrev PerformsText (ctx : RenderContext) (r : Render String) (steps : List RenderStep) : Prop :=
  Performs ctx r steps fun _ => True

section
variable (ctx : RenderContext)

theorem outcome_call (name : String) (count : Nat) (steps : List RenderStep) :
    outcome ctx (.call name count :: steps) =
      match ctx.dialect.callError? name count with
      | some e => ([], some e)
      | none => outcome ctx steps := by
  rfl

theorem performs_call (name : String) (args : List String) :
    PerformsText ctx (Render.ofExcept (ctx.call name args)) [.call name args.length] := by
  have hend := ctx.endsWith_call name args
  refine performs_ofExcept ?_ ?_ <;> rw [outcome_call]
  · split <;> rfl
  · split <;> rename_i herror <;> rw [herror] at hend <;> exact hend

theorem performs_likeText (operand pattern : String) (ignoreCase : Bool) :
    PerformsText ctx (Render.ofExcept (ctx.likeText operand pattern ignoreCase))
      (if ignoreCase && !ctx.dialect.ilike then [.call "lower" 1, .call "lower" 1] else []) := by
  unfold RenderContext.likeText
  cases ignoreCase with
  | false => exact performs_pure trivial
  | true =>
    cases hilike : ctx.dialect.ilike with
    | true => exact performs_pure trivial
    | false =>
      have hoperand := ctx.endsWith_call "lower" [operand]
      have hpattern := ctx.endsWith_call "lower" [pattern]
      simp only [List.length_singleton] at hoperand hpattern
      -- both calls have one argument, so that both fail or none does
      cases herror : ctx.dialect.callError? "lower" 1 with
      | some e =>
        rw [herror] at hoperand
        have hcall : ctx.call "lower" [operand] = .error e := hoperand
        refine performs_ofExcept ?_ ?_ <;> simp [outcome_call, herror, hcall, EndsAs]
      | none =>
        rw [herror] at hoperand hpattern
        obtain ⟨lowered, hlowered, -⟩ := hoperand
        obtain ⟨loweredPattern, hloweredPattern, -⟩ := hpattern
        have hdone : outcome ctx [.call "lower" 1, .call "lower" 1] = ([], none) := by
          simp only [outcome_call, herror]
          rfl
        refine performs_ofExcept ?_ ?_ <;> simp [hdone, hlowered, hloweredPattern, EndsAs]

theorem performs_value (v : Value) :
    PerformsText ctx (ctx.value v) (if v.isNull then [] else [.value v]) := by
  unfold RenderContext.value
  split
  · exact performs_pure trivial
  split
  · rename_i hctx
    intro vs
    refine ⟨.ok (ctx.dialect.parameter (generatedName vs.length)), ?_, ?_⟩
    · simp only [Render.bind_apply, Render.register, ParameterSet.register_ofValues]
      simp [outcome, RenderStep.error?, RenderStep.registered, hctx, Render.pure_apply]
    · simp [outcome, RenderStep.error?, hctx, EndsAs]
  · rename_i hctx
    cases hliteral : ctx.dialect.literal v with
    | ok text =>
      refine performs_ofExcept ?_ ?_ <;>
        simp [outcome, RenderStep.error?, RenderStep.registered, hctx, hliteral, EndsAs]
    | error e =>
      refine performs_ofExcept ?_ ?_ <;> simp [outcome, RenderStep.error?, hctx, hliteral, EndsAs]

theorem steps_of_isNullLiteral {d : Dialect} {e : Expr} (h : e.isNullLiteral = true) : e.steps d = [] := by
  cases e <;> simp_all [Expr.isNullLiteral, Expr.steps]

mutual

theorem performs_render : ∀ e : Expr, PerformsText ctx (e.render ctx) (e.steps ctx.dialect)
  | .field .. | .plain _ | .compareFields .. => by
    simp only [Expr.render, Expr.steps]; exact performs_pure trivial
  | .literal v => by
    simp only [Expr.render, Expr.steps]; exact performs_value ctx v
  | .compare left op right => by
    simp only [Expr.render, Expr.steps]
    refine (performs_render left).bind fun l _ => ?_
    cases h : RenderContext.nullComparison? op right with
    | some negated =>
      rw [steps_of_isNullLiteral (RenderContext.isNullLiteral_of_nullComparison? h)]
      exact performs_pure trivial
    | none => exact (performs_render right).map fun _ _ => trivial
  | .logical left op right => by
    simp only [Expr.render, Expr.steps]
    exact (performs_render left).bind fun l _ => (performs_render right).map fun _ _ => trivial
  | .junction op [] => by
    simp only [Expr.render, Expr.steps, Expr.stepsAll]; exact performs_pure trivial
  | .junction op (e :: es) => by
    simp only [Expr.render, Expr.steps, Expr.stepsAll]
    exact (performs_render e).bind fun first _ => (performs_renderAll es).map fun _ _ => trivial
  | .not expr | .isNull expr _ | .select expr .. | .order expr _ => by
    simp only [Expr.render, Expr.steps]; exact (performs_render expr).map fun _ _ => trivial
  | .between expr low high => by
    simp only [Expr.render, Expr.steps]
    refine (performs_render expr).bind fun operand _ => (performs_render low).bind fun l _ => ?_
    exact (performs_render high).map fun _ _ => trivial
  | .inList expr [] negated => by
    simp only [Expr.render, Expr.steps]; exact performs_pure trivial
  | .inList expr (v :: vs) negated => by
    simp only [Expr.render, Expr.steps, Expr.stepsAll]
    refine (performs_render expr).bind fun operand _ => (performs_render v).bind fun first _ => ?_
    exact (performs_renderAll vs).map fun _ _ => trivial
  | .like expr pattern mode escape ignoreCase => by
    simp only [Expr.render, Expr.steps]
    have hpattern := performs_value ctx (.string (mode.decorate pattern))
    refine (performs_render expr).bind fun operand _ => hpattern.bind fun p _ => ?_
    exact (performs_likeText ctx operand p ignoreCase).map fun _ _ => trivial
  | .function name args => by
    simp only [Expr.render, Expr.steps]
    refine (performs_renderAll args).bind fun rendered hlength => ?_
    rw [← hlength]
    exact performs_call ctx name rendered
  | .aggregate name column => by
    simp only [Expr.render, Expr.steps]; exact performs_call ctx name _

theorem performs_renderAll : ∀ es : List Expr, Performs ctx (Expr.renderAll ctx es) (Expr.stepsAll ctx.dialect es)
    fun texts => texts.length = es.length
  | [] => by simp only [Expr.renderAll, Expr.stepsAll]; exact performs_pure rfl
  | e :: es => by
    simp only [Expr.renderAll, Expr.stepsAll]
    exact (performs_render e).bind fun first _ => (performs_renderAll es).map fun texts h => congrArg (· + 1) h

end

end

/-! ## Passes in which renderings fail -/

/-- A pass has registered what each of its renderings did, to the end or up to the failure. -/
theorem pass_eq_flatMap (ctx : RenderContext) (es : List Expr) :
    ctx.pass es = ofValues (es.flatMap fun e => (outcome ctx (e.steps ctx.dialect)).1) := by
  induction es using List.reverseRecOn with
  | nil => rfl
  | append_singleton es e ih =>
    obtain ⟨result, hresult, -⟩ := performs_render ctx e (es.flatMap fun e => (outcome ctx (e.steps ctx.dialect)).1)
    rw [pass_snoc, ih, hresult, List.flatMap_append, List.flatMap_singleton]

namespace RenderContext

variable (ctx : RenderContext)

/-- In a pass over the expressions there is a rendering of this kind, said of the expressions before it and its own. -/
def InPass (kind : List Expr → Expr → Prop) (es : List Expr) : Prop :=
  ∃ before e after, es = before ++ e :: after ∧ kind before e

/-- A rendering that succeeds has the placeholder in its text. -/
def Mentioned (es : List Expr) (name : String) : Prop :=
  InPass (fun before e => ∃ text ps, e.render ctx (ctx.pass before) = (.ok text, ps) ∧ ctx.dialect.Mentions text name) es

/-- A rendering that fails has registered the name. -/
def LeftBehind (es : List Expr) (name : String) : Prop :=
  InPass (fun before e => ∃ err ps, e.render ctx (ctx.pass before) = (.error err, ps) ∧
    name ∈ ps.names ∧ name ∉ (ctx.pass before).names) es

variable {ctx} {kind : List Expr → Expr → Prop} {es : List Expr} {e : Expr} {name : String}

theorem InPass.snoc (h : InPass kind es) (e : Expr) : InPass kind (es ++ [e]) := by
  obtain ⟨before, e', after, rfl, h⟩ := h
  exact ⟨before, e', after ++ [e], by simp, h⟩

theorem inPass_snoc (h : kind es e) : InPass kind (es ++ [e]) := ⟨es, e, [], rfl, h⟩

/-- The induction is on the last rendering, before which each name is known to be mentioned or left behind. -/
theorem mentioned_or_leftBehind (hctx : ctx.parameterized = true) (hd : ctx.dialect.WritesWords) (es : List Expr)
    (hes : ∀ e ∈ es, e.keepsParameters ctx.dialect = true) :
    ∀ name ∈ (ctx.pass es).names, ctx.Mentioned es name ∨ ctx.LeftBehind es name := by
  induction es using List.reverseRecOn with
  | nil => intro name hname; cases hname
  | append_singleton es e ih =>
    have hold : ∀ name ∈ (ctx.pass es).names, ctx.Mentioned (es ++ [e]) name ∨ ctx.LeftBehind (es ++ [e]) name :=
      fun name hname => (ih (fun e' he' => hes e' (List.mem_append_left _ he')) name hname).imp (·.snoc e) (·.snoc e)
    have he : e.keepsParameters ctx.dialect = true := hes e (List.mem_append_right _ List.mem_cons_self)
    intro name hname
    rw [pass_snoc] at hname
    rcases hrender : e.render ctx (ctx.pass es) with ⟨err | text, ps⟩
    · rw [hrender] at hname
      by_cases hbefore : name ∈ (ctx.pass es).names
      · exact hold name hbefore
      · exact .inr (inPass_snoc ⟨err, ps, hrender, hname, hbefore⟩)
    · rw [hrender] at hname
      have hcovers := covers_render hctx hd e _ he (ctx.pass es) text ps hold hrender name hname
      exact hcovers.elim id fun hmentions => .inl (inPass_snoc ⟨text, ps, hrender, hmentions⟩)

end RenderContext

namespace ParameterSet

theorem entries_ofValues_append (vs ws : List Value) : (ofValues (vs ++ ws)).entries =
    (ofValues vs).entries ++ ws.mapIdx fun i v => (generatedName ((ofValues vs).size + i), v) := by
  simp [ofValues, size, List.mapIdx_append, Nat.add_comm]

theorem ofValues_append_eq_iff {vs ws : List Value} : ofValues (vs ++ ws) = ofValues vs ↔ ws = [] := by
  refine ⟨fun h => ?_, fun h => by rw [h, List.append_nil]⟩
  have hnext : vs.length + ws.length = vs.length := by simpa [ofValues] using congrArg next h
  exact List.length_eq_zero_iff.mp (by omega)

end ParameterSet

/-- After any renderings of a pass, one that fails keeps the parameters that there were and adds, under the next names,
one for each value in front of the step that fails it, so that it changes nothing if and only if there is none, as
always without parameters. In a built-in dialect, where no call drops an argument with parameters, each parameter of
the pass, however it goes on, stands in the text of a rendering that succeeds or was added by one that fails. -/
theorem failed_render_keeps_registered (ctx : RenderContext) (before : List Expr) {e : Expr} {err : Error}
    {ps' : ParameterSet} (h : e.render ctx (ctx.pass before) = (.error err, ps')) :
    let ps := ctx.pass before
    (∃ done failing rest, e.steps ctx.dialect = done ++ failing :: rest ∧ (∀ step ∈ done, step.error? ctx = none) ∧
      failing.error? ctx = some err ∧
      let values := done.flatMap fun step => step.registered ctx
      ps'.entries = ps.entries ++ values.mapIdx (fun i v => ("p_" ++ toString (ps.size + i), v)) ∧
        (ps' = ps ↔ values = [])) ∧
      (ctx.parameterized = false → ps' = ps) ∧
      (ctx.dialect ∈ Dialect.builtIn → ∀ after : List Expr,
        (∀ e' ∈ before ++ e :: after, e'.keepsParameters ctx.dialect = true) →
          ∀ name ∈ (ctx.pass (before ++ e :: after)).names,
            ctx.Mentioned (before ++ e :: after) name ∨ ctx.LeftBehind (before ++ e :: after) name) := by
  intro ps
  refine ⟨?_, ?_, ?_⟩
  · have hps : ps = ofValues (before.flatMap fun e => (outcome ctx (e.steps ctx.dialect)).1) := pass_eq_flatMap ctx before
    generalize (before.flatMap fun e => (outcome ctx (e.steps ctx.dialect)).1) = vs at hps
    obtain ⟨result, hresult, hend⟩ := performs_render ctx e vs
    obtain ⟨us, error, houtcome⟩ : ∃ us error, outcome ctx (e.steps ctx.dialect) = (us, error) := ⟨_, _, rfl⟩
    rw [houtcome] at hresult hend
    rw [← hps, h] at hresult
    obtain ⟨rfl, rfl⟩ := Prod.mk.inj hresult
    cases error with
    | none =>
      obtain ⟨text, htext, -⟩ := hend
      cases htext
    | some error =>
      obtain rfl : err = error := Except.error.inj hend
      obtain ⟨done, failing, rest, hsteps, hdone, hfailing, rfl⟩ := RenderStep.exists_of_outcome houtcome
      refine ⟨done, failing, rest, hsteps, hdone, hfailing, ?_, ?_⟩
      · rw [hps]
        exact ParameterSet.entries_ofValues_append vs _
      · rw [hps]
        exact ParameterSet.ofValues_append_eq_iff
  · intro hctx
    have hsilent : (e.render ctx ps).2 = ps := (silentLaw hctx).render e ps
    rwa [show e.render ctx ps = (.error err, ps') from h] at hsilent
  · intro hd after hkeeps
    cases hctx : ctx.parameterized with
    | true => exact RenderContext.mentioned_or_leftBehind hctx (writesWords_of_builtIn hd) _ hkeeps
    | false =>
      rw [pass_of_inline hctx]
      intro name hname
      cases hname

/-- The text to look for is registered before the call lacks the text to look in. The number that is compared with the
place is not reached, and the condition behind it goes on with the next name. -/
theorem lacking_argument_left_behind :
    let ctx : RenderContext := { dialect := Dialect.ansi }
    let named : Expr := .like (.field "name" none) "an" .startsWith none false
    let located : Expr := .compare (.function "locate" [.literal (.string "x")]) .gt (.literal (.int32 7))
    let old : Expr := .compare (.field "age" none) .ge (.literal (.int32 30))
    let err : Error := .invalidArgument (.missingArgument "position(?1 in ?2)" 2 1)
    located.render ctx (ctx.pass [named]) = (.error err, ofValues [.string "an%", .string "x"]) ∧
      (∃ done failing rest, located.steps ctx.dialect = done ++ failing :: rest ∧
        failing.error? ctx = some err ∧ (ofValues [.string "an%", .string "x"]).entries =
          (ctx.pass [named]).entries ++ (done.flatMap fun step => step.registered ctx).mapIdx
            fun i v => ("p_" ++ toString ((ctx.pass [named]).size + i), v)) ∧
      (ctx.pass [named, located, old]).names = ["p_0", "p_1", "p_2"] ∧
      ∀ name ∈ (ctx.pass [named, located, old]).names,
        ctx.Mentioned [named, located, old] name ∨ ctx.LeftBehind [named, located, old] name := by
  intro ctx named located old err
  have hrender : located.render ctx (ctx.pass [named]) = (.error err, ofValues [.string "an%", .string "x"]) :=
    Prod.ext (by decide) (by decide)
  have hd : ctx.dialect ∈ Dialect.builtIn := List.mem_cons_self
  have hkeeps : ∀ e ∈ [named] ++ located :: [old], e.keepsParameters ctx.dialect = true := by decide
  obtain ⟨⟨done, failing, rest, hsteps, -, hfailing, hentries, -⟩, -, hnames⟩ :=
    failed_render_keeps_registered ctx [named] hrender
  exact ⟨hrender, ⟨done, failing, rest, hsteps, hfailing, hentries⟩, by decide, hnames hd [old] hkeeps⟩

/-- A function that is not registered is looked for behind its argument, whose parameter stays. The next rendering has
it among its parameters, and its text does not refer to it. -/
theorem failed_render_registers :
    let ctx : RenderContext := { dialect := Dialect.ansi }
    let sounding : Expr := .function "soundex" [.literal (.int32 5)]
    let aged : Expr := .compare (.field "age" none) .eq (.literal (.int32 3))
    sounding.render ctx (ctx.pass []) = (.error (.unsupportedFunction "soundex" "ansi"), ofValues [.int32 5]) ∧
      ofValues [.int32 5] ≠ ctx.pass [] ∧
      aged.render ctx (ctx.pass [sounding]) = (.ok "age = :p_1", ofValues [.int32 5, .int32 3]) ∧
      "p_0" ∈ (ctx.pass [sounding, aged]).names ∧ ¬ ctx.dialect.Mentions "age = :p_1" "p_0" := by
  intro ctx sounding aged
  refine ⟨Prod.ext (by decide) (by decide), by decide, Prod.ext (by decide) (by decide), by decide, ?_⟩
  rintro ⟨before, after, htext, -⟩
  have hfound : ('0' : Char) ∈ "age = :p_1".toList := by
    rw [htext]
    exact List.mem_append_left _ (List.mem_append_right _ (by decide))
  revert hfound
  decide

end SqlMapping
