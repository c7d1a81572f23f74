import SqlMapping.Criteria.Query
import SqlMapping.Dialect.BuiltIn
import SqlMapping.Proofs.Criteria.Registration
import SqlMapping.Proofs.Row.Scan

/-!
# Parameters that the text refers to

A query has parameters and a text that refers to them by their placeholders. What a rendering registers it writes
into the text, but for one thing: a template writes the arguments it has places for, and drops others without an
error. `parameters_mentioned`: in a built-in dialect, where no call drops an argument with parameters, each parameter
of a query stands in its text.
-/

namespace SqlMapping

open ParameterSet (ofValues)

/-! ## Placeholders in a text -/

/-- The placeholder of the parameter stands in the text, and no ASCII letter, digit or `_` follows it. -/
def Dialect.Mentions (d : Dialect) (s name : String) : Prop :=
  ∃ before after : List Char, s.toList = before ++ (d.parameter name).toList ++ after ∧ EndsWord after

def Breaks (s : String) : Prop := (s.toList.head?.any fun c => !isWordChar c) = true

instance (s : String) : Decidable (Breaks s) := inferInstanceAs (Decidable (_ = _))

theorem Breaks.endsWord {s : String} (h : Breaks s) : EndsWord s.toList := by
  intro c hc
  rw [Breaks, hc] at h
  simpa using h

theorem Breaks.append {s : String} (h : Breaks s) (t : String) : Breaks (s ++ t) := by
  unfold Breaks at *
  cases hs : s.toList with
  | nil => rw [hs] at h; cases h
  | cons c cs =>
    rw [hs] at h
    rw [String.toList_append, hs]
    exact h

section
variable {d : Dialect} {s t name : String}

theorem mentions_parameter (d : Dialect) (name : String) : d.Mentions (d.parameter name) name :=
  ⟨[], [], by simp, by intro c hc; cases hc⟩

theorem Dialect.Mentions.behind (h : d.Mentions t name) (s : String) : d.Mentions (s ++ t) name := by
  obtain ⟨before, after, ht, hafter⟩ := h
  exact ⟨s.toList ++ before, after, by simp [ht], hafter⟩

theorem Dialect.Mentions.before (h : d.Mentions s name) (ht : EndsWord t.toList) : d.Mentions (s ++ t) name := by
  obtain ⟨before, after, hs, hafter⟩ := h
  exact ⟨before, after ++ t.toList, by simp [hs], hafter.append fun _ => ht⟩

theorem Dialect.Mentions.beforeBreak (h : d.Mentions s name) (ht : Breaks t) : d.Mentions (s ++ t) name :=
  h.before ht.endsWord

theorem joined_mentions {op : String} (hop : Breaks op) (h : d.Mentions s name ∨ d.Mentions t name) :
    d.Mentions (s ++ op ++ t) name := by
  rcases h with h | h
  · rw [String.append_assoc]
    exact h.beforeBreak (hop.append t)
  · exact h.behind (s ++ op)

theorem Dialect.Mentions.intercalate {sep : String} (hsep : Breaks sep) {ts : List String} (hs : s ∈ ts)
    (h : d.Mentions s name) : d.Mentions (sep.intercalate ts) name := by
  induction ts with
  | nil => cases hs
  | cons u us ih =>
    cases us with
    | nil =>
      rw [List.mem_singleton] at hs
      rw [String.intercalate_singleton, ← hs]
      exact h
    | cons v vs =>
      rw [String.intercalate_cons_cons, String.append_assoc]
      rcases List.mem_cons.mp hs with rfl | hs
      · exact h.beforeBreak (hsep.append _)
      · exact ((ih hs).behind sep).behind u

end

/-! ## Arguments that are written -/

namespace TemplatePart

def isPlaceOf (n : Nat) : TemplatePart → Bool
  | .char _ => false
  | .slot digits => natOfDigits digits == n

/-- Whether each place is followed by a character that ends a word, or by nothing. -/
def apart : List TemplatePart → Bool
  | [] => true
  | .char _ :: parts => apart parts
  | [.slot _] => true
  | .slot _ :: .char c :: parts => !isWordChar c && apart parts
  | .slot _ :: .slot _ :: _ => false

end TemplatePart

namespace FunctionForm

/-- Whether the form writes its argument of this index. Only a template may have no place for it. -/
def writes : FunctionForm → Nat → Bool
  | .template text, i => (TemplatePart.split none text.toList).any (TemplatePart.isPlaceOf (i + 1))
  | _, _ => true

def apart : FunctionForm → Bool
  | .standard _ | .noArguments .. => true
  | .template text => TemplatePart.apart (TemplatePart.split none text.toList)
  | .variadic _ separator after => Breaks separator && Breaks after

end FunctionForm

namespace Functions

/-- Registration brings in no forms but those registered. -/
theorem all_registerAll {p : FunctionForm → Bool} {forms : List (String × FunctionForm)}
    (hforms : forms.all (fun f => p f.2) = true) :
    ∀ {fs : Functions}, fs.all (fun f => p f.2) = true → (fs.registerAll forms).all (fun f => p f.2) = true := by
  simp only [List.all_eq_true] at *
  induction forms with
  | nil => intro fs hfs; exact hfs
  | cons form forms ih =>
    intro fs hfs
    refine ih (fun f hf => hforms f (List.mem_cons_of_mem form hf)) fun f hf => ?_
    rcases Keyed.mem_insert hf with rfl | hf
    · exact hforms form List.mem_cons_self
    · exact hfs f hf

def Apart (fs : List (String × FunctionForm)) : Prop := (fs.all fun f => f.2.apart) = true

instance (fs : List (String × FunctionForm)) : Decidable (Apart fs) := inferInstanceAs (Decidable (_ = _))

theorem Apart.registerAll {forms : List (String × FunctionForm)} (hforms : Apart forms) {fs : Functions}
    (hfs : Apart fs) : Apart (fs.registerAll forms) := all_registerAll hforms hfs

end Functions

section
variable {d : Dialect} {args : List String} {text arg name : String} {i : Nat}

namespace TemplatePart

theorem endsWord_fillAll {template : String} {digits : List Char} {parts : List TemplatePart}
    (hparts : apart (.slot digits :: parts) = true) (h : fillAll template args parts = .ok text) :
    EndsWord text.toList := by
  cases parts with
  | nil => cases h; intro c hc; cases hc
  | cons part parts =>
    cases part with
    | slot _ => cases hparts
    | char c =>
      simp only [apart, Bool.and_eq_true, Bool.not_eq_true'] at hparts
      simp only [fillAll, fill] at h
      split at h
      · cases h
      · cases h
        intro c' hc'
        have hc : c = c' := by simpa using hc'
        exact hc ▸ hparts.1

theorem apart_tail {part : TemplatePart} {parts : List TemplatePart} (h : apart (part :: parts) = true) :
    apart parts = true := by
  cases part with
  | char c => exact h
  | slot digits =>
    cases parts with
    | nil => rfl
    | cons part parts =>
      cases part with
      | slot _ => cases h
      | char c => exact (Bool.and_eq_true _ _ ▸ h).2

theorem mentions_fillAll {template : String} (harg : args[i]? = some arg) (hmentions : d.Mentions arg name) :
    ∀ {parts : List TemplatePart} {text : String}, apart parts = true →
      parts.any (isPlaceOf (i + 1)) = true → fillAll template args parts = .ok text → d.Mentions text name
  | [], _, _, hplace, _ => by cases hplace
  | part :: parts, text, hparts, hplace, h => by
    simp only [fillAll] at h
    split at h
    · cases h
    rename_i here hhere
    split at h
    · cases h
    rename_i rest hrest
    obtain rfl := Except.ok.inj h
    rw [List.any_cons, Bool.or_eq_true] at hplace
    rcases hplace with hplace | hplace
    · cases part with
      | char _ => cases hplace
      | slot digits =>
        have hindex : natOfDigits digits = i + 1 := by simpa [isPlaceOf] using hplace
        simp only [fill, hindex, Nat.add_sub_cancel, harg] at hhere
        split at hhere
        · cases hhere
        · cases hhere
          exact hmentions.before (endsWord_fillAll hparts hrest)
    · exact (mentions_fillAll harg hmentions (apart_tail hparts) hplace hrest).behind here

end TemplatePart

theorem FunctionForm.mentions_apply {form : FunctionForm} (hform : form.apart = true)
    (h : form.apply args = .ok text) (harg : args[i]? = some arg) (hwrites : form.writes i = true)
    (hmentions : d.Mentions arg name) : d.Mentions text name := by
  have hmem : arg ∈ args := List.mem_of_getElem? harg
  cases form with
  | standard f =>
    obtain rfl := Except.ok.inj h
    have hargs : d.Mentions (", ".intercalate args) name := hmentions.intercalate (by decide) hmem
    exact (hargs.behind (f ++ "(")).beforeBreak (by decide)
  | noArguments f parens =>
    cases args with
    | nil => cases hmem
    | cons _ _ => cases h
  | template text => exact TemplatePart.mentions_fillAll harg hmentions hform hwrites h
  | variadic before separator after =>
    obtain rfl := Except.ok.inj h
    simp only [apart, Bool.and_eq_true, decide_eq_true_eq] at hform
    have hargs : d.Mentions (separator.intercalate args) name := hmentions.intercalate hform.1 hmem
    exact (hargs.behind before).beforeBreak hform.2

end

/-! ## Expressions that drop no parameter -/

def Dialect.writesParameters (d : Dialect) (name : String) (args : List Expr) : Bool :=
  match d.function? name with
  | none => true
  | some form => args.zipIdx.all fun arg => form.writes arg.2 || arg.1.slots.isEmpty

mutual

/-- Whether no call in the expression drops an argument that registers parameters. What is behind an empty list of
values is not rendered at all. -/
def Expr.keepsParameters (d : Dialect) : Expr → Bool
  | .field .. | .literal _ | .plain _ | .aggregate .. | .compareFields .. => true
  | .compare left _ right | .logical left _ right =>
    Expr.keepsParameters d left && Expr.keepsParameters d right
  | .junction _ exprs => Expr.keepsParametersAll d exprs
  | .not expr | .isNull expr _ | .like expr .. | .select expr .. | .order expr _ => Expr.keepsParameters d expr
  | .between expr low high =>
    Expr.keepsParameters d expr && (Expr.keepsParameters d low && Expr.keepsParameters d high)
  | .inList expr values _ =>
    values.isEmpty || (Expr.keepsParameters d expr && Expr.keepsParametersAll d values)
  | .function name args => d.writesParameters name args && Expr.keepsParametersAll d args

def Expr.keepsParametersAll (d : Dialect) : List Expr → Bool
  | [] => true
  | e :: es => Expr.keepsParameters d e && Expr.keepsParametersAll d es

end

/-! ## Names along a rendering -/

/-- If the names so far satisfy `P` and the computation succeeds, the names after it satisfy what `Q` says of its
result. -/
def Covers {α : Type} (P : String → Prop) (r : Render α) (Q : α → String → Prop) : Prop :=
  ∀ ps a ps', (∀ name ∈ ps.names, P name) → r ps = (.ok a, ps') → ∀ name ∈ ps'.names, Q a name

section
variable {α β : Type} {P : String → Prop} {Q : α → String → Prop}

theorem covers_pure {a : α} (h : ∀ name, P name → Q a name) : Covers P (pure a) Q := by
  intro ps b ps' hps hb
  cases hb
  exact fun name hname => h name (hps name hname)

theorem Covers.bind {r : Render α} {f : α → Render β} {Q' : β → String → Prop} (hr : Covers P r Q)
    (hf : ∀ a, Covers (Q a) (f a) Q') : Covers P (r >>= f) Q' := by
  intro ps b ps' hps hb
  rw [Render.bind_apply] at hb
  split at hb
  · rename_i a ps₁ ha
    exact hf a ps₁ b ps' (hr ps a ps₁ hps ha) hb
  · cases hb

theorem Covers.map {r : Render α} {f : α → β} {Q' : β → String → Prop} (hr : Covers P r Q)
    (hf : ∀ a name, Q a name → Q' (f a) name) : Covers P (r >>= fun a => pure (f a)) Q' :=
  hr.bind fun a => covers_pure (hf a)

theorem covers_ofExcept {x : Except Error α} (h : ∀ a, x = .ok a → ∀ name, P name → Q a name) :
    Covers P (Render.ofExcept x) Q := by
  intro ps a ps' hps ha
  obtain ⟨hx, rfl⟩ := Prod.mk.inj ha
  exact fun name hname => h a hx name (hps name hname)

end

/-- A rendering that has no slots leaves the parameters as they are. -/
theorem quietLaw (ctx : RenderContext) :
    RenderLaw ctx fun {_} r ws => ws = [] → ∀ ps, (r ps).2 = ps where
  pure _ _ _ := rfl
  bind {α β r f vs ws} hr hf hnone ps := by
    obtain ⟨hvs, hws⟩ := List.append_eq_nil_iff.mp hnone
    have hps := hr hvs ps
    rw [Render.bind_apply]
    split
    · rename_i a ps₁ ha
      rw [ha] at hps
      exact (hf a hws ps₁).trans hps
    · rename_i e ps₁ he
      rw [he] at hps
      exact hps
  ofExcept _ _ _ := rfl
  value v hnone ps := by
    unfold RenderContext.value
    split at hnone
    · rw [if_pos (by assumption)]; rfl
    · cases hnone

theorem ParameterSet.names_register {ps ps' : ParameterSet} {v : Value} {name : String}
    (h : ps.register v = (.ok name, ps')) : ps'.names = ps.names ++ [name] := by
  unfold register registerNamed at h
  dsimp only at h
  split at h
  · rename_i hnamed
    split at hnamed
    · cases hnamed
    · cases hnamed
      cases h
      simp [names]
  · cases h

theorem covers_value {ctx : RenderContext} (hctx : ctx.parameterized = true) (P : String → Prop) (v : Value) :
    Covers P (ctx.value v) fun s name => P name ∨ ctx.dialect.Mentions s name := by
  rw [RenderContext.value, if_pos hctx]
  split
  · exact covers_pure fun name => .inl
  · intro ps s ps' hps hs
    rw [Render.bind_apply] at hs
    split at hs
    · rename_i name ps₁ hregister
      cases hs
      intro name' hname'
      rw [ParameterSet.names_register hregister] at hname'
      rcases List.mem_append.mp hname' with hold | hnew
      · exact .inl (hps name' hold)
      · exact .inr (List.mem_singleton.mp hnew ▸ mentions_parameter ctx.dialect name)
    · cases hs

theorem Covers.of_slots {ctx : RenderContext} {P : String → Prop} {Q : String → String → Prop} {e : Expr}
    (h : Covers P (e.render ctx) fun s name => P name ∨ Q s name) :
    Covers P (e.render ctx) fun s name => P name ∨ (e.slots ≠ [] ∧ Q s name) := by
  intro ps s ps' hps hs name hname
  by_cases hslots : e.slots = []
  · -- nothing is registered, so the text need not mention anything
    have hquiet := (quietLaw ctx).render e hslots ps
    rw [hs] at hquiet
    obtain rfl : ps' = ps := hquiet
    exact .inl (hps name hname)
  · exact (h ps s ps' hps hs name hname).imp_right fun hmentions => ⟨hslots, hmentions⟩

def Dialect.MentionsIn (d : Dialect) (es : List Expr) (texts : List String) (name : String) : Prop :=
  ∃ (i : Nat) (e : Expr) (s : String), es[i]? = some e ∧ texts[i]? = some s ∧ e.slots ≠ [] ∧ d.Mentions s name

section
variable {d : Dialect} {es : List Expr} {texts : List String} {name : String}

theorem Dialect.MentionsIn.head {e : Expr} {s : String} (he : e.slots ≠ []) (h : d.Mentions s name) :
    d.MentionsIn (e :: es) (s :: texts) name :=
  ⟨0, e, s, rfl, rfl, he, h⟩

theorem Dialect.MentionsIn.tail {e : Expr} {s : String} (h : d.MentionsIn es texts name) :
    d.MentionsIn (e :: es) (s :: texts) name := by
  obtain ⟨i, e', s', he, hs, h⟩ := h
  exact ⟨i + 1, e', s', he, hs, h⟩

theorem mentions_intercalate {sep s : String} (hsep : Breaks sep)
    (h : d.Mentions s name ∨ d.MentionsIn es texts name) : d.Mentions (sep.intercalate (s :: texts)) name := by
  rcases h with h | ⟨i, e, t, -, ht, -, h⟩
  · exact h.intercalate hsep List.mem_cons_self
  · exact h.intercalate hsep (List.mem_cons_of_mem s (List.mem_of_getElem? ht))

theorem Dialect.writes_of_writesParameters {f : String} {form : FunctionForm} {i : Nat} {e : Expr}
    (h : d.writesParameters f es = true) (hform : d.function? f = some form) (he : es[i]? = some e)
    (hslots : e.slots ≠ []) : form.writes i = true := by
  rw [writesParameters, hform] at h
  have harg := List.all_eq_true.mp h (e, i) (List.mem_zipIdx_iff_getElem?.mpr he)
  simpa [hslots] using harg

end

/-! ## Renderings mention what they register -/

structure Dialect.WritesWords (d : Dialect) : Prop where
  apart : ∀ {f form}, d.function? f = some form → form.apart = true
  lower : ∀ {form}, d.function? "lower" = some form → form.writes 0 = true

section
variable {ctx : RenderContext} {text name : String}

theorem RenderContext.mentions_call (hd : ctx.dialect.WritesWords) {f arg : String} {args : List String} {i : Nat}
    (h : ctx.call f args = .ok text) (harg : args[i]? = some arg)
    (hwrites : ∀ form, ctx.dialect.function? f = some form → form.writes i = true)
    (hmentions : ctx.dialect.Mentions arg name) : ctx.dialect.Mentions text name := by
  unfold call at h
  split at h
  · cases h
  · rename_i form hform
    exact FunctionForm.mentions_apply (hd.apart hform) h harg (hwrites form hform) hmentions

theorem RenderContext.mentions_lower (hd : ctx.dialect.WritesWords) {arg : String}
    (h : ctx.call "lower" [arg] = .ok text) (hmentions : ctx.dialect.Mentions arg name) :
    ctx.dialect.Mentions text name :=
  mentions_call hd h List.getElem?_cons_zero (fun _ => hd.lower) hmentions

theorem RenderContext.mentions_likeText (hd : ctx.dialect.WritesWords) {operand pattern : String} {ignoreCase : Bool}
    (h : ctx.likeText operand pattern ignoreCase = .ok text)
    (hmentions : ctx.dialect.Mentions operand name ∨ ctx.dialect.Mentions pattern name) :
    ctx.dialect.Mentions text name := by
  unfold likeText at h
  split at h
  · obtain rfl := Except.ok.inj h
    exact joined_mentions (by decide) hmentions
  split at h
  · obtain rfl := Except.ok.inj h
    exact joined_mentions (by decide) hmentions
  split at h
  · cases h
  rename_i lowered hlowered
  split at h
  · cases h
  rename_i loweredPattern hpattern
  obtain rfl := Except.ok.inj h
  exact joined_mentions (by decide) (hmentions.imp (mentions_lower hd hlowered) (mentions_lower hd hpattern))

theorem RenderContext.endsWord_escapeClause (ctx : RenderContext) (escape : Option Char) :
    EndsWord (ctx.escapeClause escape).toList := by
  cases escape with
  | none => intro c hc; cases hc
  | some c => exact (Breaks.append (by decide) _).endsWord

end

mutual

/-- The induction is on the expression. `P` is what is known of the parameters registered to its left. -/
theorem covers_render {ctx : RenderContext} (hctx : ctx.parameterized = true) (hd : ctx.dialect.WritesWords) :
    ∀ (e : Expr) (P : String → Prop), e.keepsParameters ctx.dialect = true →
      Covers P (e.render ctx) fun s name => P name ∨ ctx.dialect.Mentions s name
  | .field .., _, _ | .plain _, _, _ | .compareFields .., _, _ => by
    simp only [Expr.render]
    exact covers_pure fun name => .inl
  | .literal v, P, _ => by
    simp only [Expr.render]
    exact covers_value hctx P v
  | .compare left op right, P, he => by
    simp only [Expr.keepsParameters, Bool.and_eq_true] at he
    simp only [Expr.render]
    refine (covers_render hctx hd left P he.1).bind fun l => ?_
    cases RenderContext.nullComparison? op right with
    | some negated =>
      exact covers_pure fun name => Or.imp_right fun h => h.beforeBreak (by cases negated <;> decide)
    | none =>
      refine (covers_render hctx hd right _ he.2).map fun r name h => (or_assoc.mp h).imp_right fun h => ?_
      have hjoined := joined_mentions ((Breaks.append (s := " ") (by decide) op.sql).append " ") h
      simpa only [String.append_assoc] using hjoined
  | .logical left op right, P, he => by
    simp only [Expr.keepsParameters, Bool.and_eq_true] at he
    simp only [Expr.render]
    refine (covers_render hctx hd left P he.1).bind fun l => ?_
    refine (covers_render hctx hd right _ he.2).map fun r name h => (or_assoc.mp h).imp_right fun h => ?_
    have hjoined := joined_mentions ((Breaks.append (s := " ") (by decide) op.sql).append " ") h
    have hclosed := (hjoined.behind "(").beforeBreak (t := ")") (by decide)
    simpa only [String.append_assoc] using hclosed
  | .junction op [], _, _ => by
    simp only [Expr.render]
    exact covers_pure fun name => .inl
  | .junction op (e :: es), P, he => by
    simp only [Expr.keepsParameters, Expr.keepsParametersAll, Bool.and_eq_true] at he
    simp only [Expr.render]
    refine (covers_render hctx hd e P he.1).bind fun first => ?_
    refine (covers_renderAll hctx hd es _ he.2).map fun rest name h => (or_assoc.mp h).imp_right fun h => ?_
    have hterms := mentions_intercalate ((Breaks.append (s := " ") (by decide) op.sql).append " ") h
    exact (hterms.behind "(").beforeBreak (by decide)
  | .not expr, P, he => by
    simp only [Expr.keepsParameters] at he
    simp only [Expr.render]
    refine (covers_render hctx hd expr P he).map fun s name => Or.imp_right fun h => ?_
    unfold RenderContext.negation
    split
    · exact (h.behind "not (").beforeBreak (by decide)
    · exact h.behind "not "
  | .isNull expr negated, P, he => by
    simp only [Expr.keepsParameters] at he
    simp only [Expr.render]
    exact (covers_render hctx hd expr P he).map fun s name => Or.imp_right fun h =>
      h.beforeBreak (by cases negated <;> decide)
  | .between expr low high, P, he => by
    simp only [Expr.keepsParameters, Bool.and_eq_true] at he
    simp only [Expr.render]
    refine (covers_render hctx hd expr P he.1).bind fun operand => ?_
    refine (covers_render hctx hd low _ he.2.1).bind fun l => ?_
    refine (covers_render hctx hd high _ he.2.2).map fun u name h => ?_
    refine (or_assoc.mp (or_assoc.mp h)).imp_right fun h => ?_
    have hbounds := h.imp_right (joined_mentions (by decide : Breaks " and "))
    have hall := joined_mentions (by decide : Breaks " between ") hbounds
    simpa only [String.append_assoc] using hall
  | .inList expr [] negated, _, _ => by
    simp only [Expr.render]
    exact covers_pure fun name => .inl
  | .inList expr (v :: vs) negated, P, he => by
    simp only [Expr.keepsParameters, Expr.keepsParametersAll, List.isEmpty_cons, Bool.false_or,
      Bool.and_eq_true] at he
    simp only [Expr.render]
    refine (covers_render hctx hd expr P he.1).bind fun operand => ?_
    refine (covers_render hctx hd v _ he.2.1).bind fun first => ?_
    refine (covers_renderAll hctx hd vs _ he.2.2).map fun rest name h => ?_
    refine (or_assoc.mp (or_assoc.mp h)).imp_right fun h => ?_
    have hvalues := h.imp_right (mentions_intercalate (by decide : Breaks ", "))
    exact (joined_mentions (by cases negated <;> decide) hvalues).beforeBreak (by decide)
  | .like expr pattern mode escape ignoreCase, P, he => by
    simp only [Expr.keepsParameters] at he
    simp only [Expr.render]
    refine (covers_render hctx hd expr P he).bind fun operand => ?_
    refine (covers_value hctx _ _).bind fun p => ?_
    have htext : Covers (fun name => (P name ∨ ctx.dialect.Mentions operand name) ∨ ctx.dialect.Mentions p name)
        (Render.ofExcept (ctx.likeText operand p ignoreCase)) fun s name => P name ∨ ctx.dialect.Mentions s name :=
      covers_ofExcept fun s hs name h => (or_assoc.mp h).imp_right (RenderContext.mentions_likeText hd hs)
    exact htext.map fun s name => Or.imp_right fun h => h.before (ctx.endsWord_escapeClause escape)
  | .function f args, P, he => by
    simp only [Expr.keepsParameters, Bool.and_eq_true] at he
    simp only [Expr.render]
    refine (covers_renderAll hctx hd args P he.2).bind fun rendered => ?_
    refine covers_ofExcept fun text htext name => Or.imp_right ?_
    rintro ⟨i, e, s, harg, hs, hslots, h⟩
    exact RenderContext.mentions_call hd htext hs
      (fun form hform => Dialect.writes_of_writesParameters he.1 hform harg hslots) h
  | .aggregate f column, _, _ => by
    simp only [Expr.render]
    exact covers_ofExcept fun _ _ name => .inl
  | .select expr label distinct, P, he => by
    simp only [Expr.keepsParameters] at he
    simp only [Expr.render]
    refine (covers_render hctx hd expr P he).map fun s name => Or.imp_right fun h => ?_
    cases label with
    | none => exact (h.behind _).before fun c hc => by cases hc
    | some a => exact (h.behind _).beforeBreak (Breaks.append (by decide) _)
  | .order expr ascending, P, he => by
    simp only [Expr.keepsParameters] at he
    simp only [Expr.render]
    exact (covers_render hctx hd expr P he).map fun s name => Or.imp_right fun h =>
      h.beforeBreak (by cases ascending <;> decide)

theorem covers_renderAll {ctx : RenderContext} (hctx : ctx.parameterized = true) (hd : ctx.dialect.WritesWords) :
    ∀ (es : List Expr) (P : String → Prop), Expr.keepsParametersAll ctx.dialect es = true →
      Covers P (Expr.renderAll ctx es) fun texts name => P name ∨ ctx.dialect.MentionsIn es texts name
  | [], _, _ => by
    simp only [Expr.renderAll]
    exact covers_pure fun name => .inl
  | e :: es, P, he => by
    simp only [Expr.keepsParametersAll, Bool.and_eq_true] at he
    simp only [Expr.renderAll]
    refine (covers_render hctx hd e P he.1).of_slots.bind fun s => ?_
    refine (covers_renderAll hctx hd es _ he.2).map fun texts name h => ?_
    rcases h with (h | ⟨hslots, h⟩) | h
    · exact .inl h
    · exact .inr (.head hslots h)
    · exact .inr h.tail

end

/-! ## Built-in dialects -/

theorem standardFunctions_apart : Functions.Apart Dialect.standardFunctions :=
  Functions.Apart.registerAll (by decide) (by decide)

theorem functions_apart {d : Dialect} (hd : d ∈ Dialect.builtIn) : Functions.Apart d.functions := by
  simp only [Dialect.builtIn, List.mem_cons, List.not_mem_nil, or_false] at hd
  rcases hd with rfl | rfl | rfl | rfl | rfl | rfl
  · exact standardFunctions_apart
  all_goals exact Functions.Apart.registerAll (by decide) standardFunctions_apart

theorem lower_writes : ∀ d ∈ Dialect.builtIn, (d.function? "lower").all (·.writes 0) = true := by decide

theorem writesWords_of_builtIn {d : Dialect} (hd : d ∈ Dialect.builtIn) : d.WritesWords where
  apart h := List.all_eq_true.mp (functions_apart hd) _ (Keyed.mem_of_find? h)
  lower h := by
    have hwrites := lower_writes d hd
    rwa [h] at hwrites

/-- In a built-in dialect, a query of an expression in which no call drops an argument with parameters has the
placeholder of each of its parameters in its text, as a whole word. -/
theorem parameters_mentioned {d : Dialect} (hd : d ∈ Dialect.builtIn) (table : Option Table) {e : Expr}
    (he : e.keepsParameters d = true) {q : Query}
    (hq : e.toQuery { dialect := d, table := table, parameterized := true } = .ok q) :
    ∀ name ∈ q.params.names, d.Mentions q.sql name := by
  unfold Expr.toQuery Render.toQuery at hq
  split at hq
  · rename_i sql ps hrender
    obtain rfl := Except.ok.inj hq
    intro name hname
    have hcovers : Covers (fun _ => False) (e.render { dialect := d, table := table, parameterized := true })
        fun s name => False ∨ d.Mentions s name :=
      covers_render rfl (writesWords_of_builtIn hd) e _ he
    exact (hcovers {} sql ps (fun _ h => by cases h) hrender name hname).resolve_left id
  · cases hq

/-- `current_date` of a field drops the field, which has no parameters. The arguments of `mod` and `coalesce` and the
pattern are all written. -/
theorem remainder_and_pattern_mentioned :
    let remainder : Expr := .function "mod" [.field "id" none, .literal (.int32 7)]
    let name : Expr := .function "coalesce" [.field "name" none, .literal (.string "?")]
    let named : Expr := .like name "ann" .contains none true
    let past : Expr := .compare (.field "created" none) .lt (.function "current_date" [.field "created" none])
    let e : Expr := .junction .and [.inList remainder [.literal (.int32 1), .literal (.int32 2)] false, named, past]
    let sql := "(" ++ "(id % @p_0) in (@p_1, @p_2)" ++ " and " ++ "lower(coalesce(name, @p_3)) like lower(@p_4)"
      ++ " and " ++ "created < date('now')" ++ ")"
    e.toQuery { dialect := Dialect.sqlite, table := none, parameterized := true } = .ok ⟨sql, ofValues e.slots⟩ ∧
      e.keepsParameters Dialect.sqlite = true ∧
      ∀ p ∈ (ofValues e.slots).names, Dialect.sqlite.Mentions sql p := by
  intro remainder name named past e sql
  have hq : e.toQuery { dialect := Dialect.sqlite, table := none, parameterized := true }
      = .ok ⟨sql, ofValues e.slots⟩ := by decide
  have he : e.keepsParameters Dialect.sqlite = true := by decide
  exact ⟨hq, he, parameters_mentioned (by simp [Dialect.builtIn]) none he hq⟩

/-- `extract` has a place for one argument. A second one is registered and then dropped, without an error, and its
placeholder is nowhere in the text. -/
theorem dropped_argument_not_mentioned :
    let e : Expr := .function "year" [.field "created" none, .literal (.int32 5)]
    let sql := "extract(year from created)"
    e.toQuery { dialect := Dialect.ansi, table := none, parameterized := true } = .ok ⟨sql, ofValues [.int32 5]⟩ ∧
      "p_0" ∈ (ofValues [.int32 5]).names ∧ ¬ (Dialect.ansi.parameter "p_0").toList <:+: sql.toList := by
  intro e sql
  refine ⟨by decide, by decide, fun hfound => ?_⟩
  have hmarker : ':' ∈ sql.toList := hfound.subset (by decide)
  revert hmarker
  decide

end SqlMapping
