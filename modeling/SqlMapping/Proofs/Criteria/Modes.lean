import SqlMapping.Criteria.Query
import SqlMapping.Proofs.Criteria.Registration
import SqlMapping.Proofs.Criteria.Spelling
import Mathlib.Data.List.Forall2
import Mathlib.Tactic.Push

/-!
# Rendering with parameters and inline

With parameters and inline, an expression has the same text up to the places of its parameters.
`render_segments`: one list of segments gives both texts, and the inline one exists if and only if the
other does and every parameter has a literal.
-/

namespace SqlMapping

open ParameterSet (ofValues)

/-- A part of rendered text: text as it stands, or the place of a parameter and its value. -/
inductive Segment where
  | text (s : String)
  | hole (parameter : String) (value : Value)

def fillSegments (f : String → Value → String) : List Segment → String
  | [] => ""
  | .text s :: rest => s ++ fillSegments f rest
  | .hole p v :: rest => f p v ++ fillSegments f rest

theorem fillSegments_append (f : String → Value → String) (xs ys : List Segment) :
    fillSegments f (xs ++ ys) = fillSegments f xs ++ fillSegments f ys := by
  induction xs with
  | nil => simp [fillSegments]
  | cons x xs ih => cases x <;> simp [fillSegments, ih, String.append_assoc]

theorem fillSegments_congr {f g : String → Value → String} {segments : List Segment}
    (h : ∀ p v, .hole p v ∈ segments → f p v = g p v) : fillSegments f segments = fillSegments g segments := by
  induction segments with
  | nil => rfl
  | cons s rest ih =>
    have hrest := ih fun p v hv => h p v (List.mem_cons_of_mem _ hv)
    cases s with
    | text s => simp only [fillSegments, hrest]
    | hole p v => simp only [fillSegments, hrest, h p v List.mem_cons_self]

namespace Dialect

def HasLiteral (d : Dialect) (v : Value) : Prop := ∃ text, d.literal v = .ok text

def spelled (d : Dialect) (v : Value) : String :=
  match d.literal v with
  | .ok text => text
  | .error _ => ""

theorem spelled_eq {d : Dialect} {v : Value} (hv : d.HasLiteral v) {spell : Value → String}
    (hspell : ∀ v text, d.literal v = .ok text → spell v = text) : d.spelled v = spell v := by
  obtain ⟨text, htext⟩ := hv
  rw [hspell v text htext, spelled, htext]

theorem literals_iff (d : Dialect) (ws : List Value) :
    (∀ p v, (ofValues ws).get? p = some v → d.HasLiteral v) ↔ ∀ w ∈ ws, d.HasLiteral w := by
  refine ⟨?_, ?_⟩
  · intro h w hw
    rw [← ParameterSet.values_ofValues ws] at hw
    obtain ⟨⟨p, v⟩, hmem, rfl⟩ := List.mem_map.mp hw
    exact h p v (ParameterSet.get?_ofValues.mpr hmem)
  · intro h p v hv
    have hmem := List.mem_map_of_mem (f := Prod.snd) (ParameterSet.get?_ofValues.mp hv)
    rw [ParameterSet.values_ofValues] at hmem
    exact h v hmem

end Dialect

inductive BothOrNeither {α : Type} (R : α → α → Prop) : Except Error α → Except Error α → Prop where
  | ok {a b : α} (h : R a b) : BothOrNeither R (.ok a) (.ok b)
  | error (e e' : Error) : BothOrNeither R (.error e) (.error e')

theorem BothOrNeither.mono {α : Type} {R S : α → α → Prop} {x y : Except Error α} (h : BothOrNeither R x y)
    (hRS : ∀ a b, R a b → S a b) : BothOrNeither S x y := by
  cases h with
  | ok h => exact .ok (hRS _ _ h)
  | error e e' => exact .error e e'

/-! ## Texts that differ in their holes alone -/

section
variable (d : Dialect)

/-- The same segments, filled with placeholders on one side and with literals on the other, whose holes
are parameters of these values. -/
def Alike (us : List Value) (s t : String) : Prop :=
  ∃ segments, (∀ p v, .hole p v ∈ segments → (p, v) ∈ (ofValues us).entries) ∧
    s = fillSegments (fun p _ => d.parameter p) segments ∧ t = fillSegments (fun _ v => d.spelled v) segments

variable {d} {us : List Value}

theorem alike_text (s : String) : Alike d us s s :=
  ⟨[.text s], by simp, by simp [fillSegments], by simp [fillSegments]⟩

theorem Alike.append {s s' t t' : String} (hs : Alike d us s t) (hs' : Alike d us s' t') :
    Alike d us (s ++ s') (t ++ t') := by
  obtain ⟨xs, hxs, rfl, rfl⟩ := hs
  obtain ⟨ys, hys, rfl, rfl⟩ := hs'
  refine ⟨xs ++ ys, fun p v h => ?_, (fillSegments_append ..).symm, (fillSegments_append ..).symm⟩
  exact (List.mem_append.mp h).elim (hxs p v) (hys p v)

theorem Alike.mono {s t : String} (h : Alike d us s t) (ws : List Value) : Alike d (us ++ ws) s t := by
  obtain ⟨xs, hxs, hs, ht⟩ := h
  exact ⟨xs, fun p v h => (ParameterSet.entries_prefix us ws).subset (hxs p v h), hs, ht⟩

theorem alike_hole (us : List Value) (v : Value) :
    Alike d (us ++ [v]) (d.parameter (generatedName us.length)) (d.spelled v) :=
  ⟨[.hole (generatedName us.length) v], by simp [ofValues], by simp [fillSegments], by simp [fillSegments]⟩

theorem Alike.between {s s' t t' : String} (hs : Alike d us s t) (hs' : Alike d us s' t') (sep : String) :
    Alike d us (s ++ sep ++ s') (t ++ sep ++ t') :=
  (hs.append (alike_text sep)).append hs'

theorem Alike.around {s t : String} (hs : Alike d us s t) (before after : String) :
    Alike d us (before ++ s ++ after) (before ++ t ++ after) :=
  ((alike_text before).append hs).append (alike_text after)

abbrev AlikeAll (d : Dialect) (us : List Value) : List String → List String → Prop := List.Forall₂ (Alike d us)

theorem intercalate_related {R : String → String → Prop} {sep : String} (hempty : R "" "")
    (hbetween : ∀ {s s' t t'}, R s t → R s' t' → R (s ++ sep ++ s') (t ++ sep ++ t')) {xs ys : List String}
    (h : List.Forall₂ R xs ys) : R (sep.intercalate xs) (sep.intercalate ys) := by
  induction h with
  | nil => exact hempty
  | cons hx hrest ih =>
    cases hrest with
    | nil => simpa using hx
    | cons hy hrest =>
      rw [String.intercalate_cons_cons, String.intercalate_cons_cons]
      exact hbetween hx ih

theorem AlikeAll.intercalate {xs ys : List String} (h : AlikeAll d us xs ys) (sep : String) :
    Alike d us (sep.intercalate xs) (sep.intercalate ys) :=
  intercalate_related (alike_text "") (fun hs ht => hs.between ht sep) h

/-! ## Function forms -/

theorem getElem?_of_forall₂ {R : String → String → Prop} {xs ys : List String} (h : List.Forall₂ R xs ys) (i : Nat) :
    (xs[i]? = none ∧ ys[i]? = none) ∨ ∃ x y, xs[i]? = some x ∧ ys[i]? = some y ∧ R x y := by
  induction h generalizing i with
  | nil => exact .inl ⟨rfl, rfl⟩
  | cons hx _ ih =>
    cases i with
    | zero => exact .inr ⟨_, _, rfl, rfl, hx⟩
    | succ i => simpa using ih i

theorem TemplatePart.fill_slot {R : String → String → Prop} {xs ys : List String} (h : List.Forall₂ R xs ys)
    (template : String) (digits : List Char) :
    BothOrNeither R (fill template xs (.slot digits)) (fill template ys (.slot digits)) := by
  simp only [fill, h.length_eq]
  split
  · exact .error _ _
  · split
    · exact .error _ _
    · obtain ⟨hx, hy⟩ | ⟨x, y, hx, hy, hxy⟩ := getElem?_of_forall₂ h (natOfDigits digits - 1)
      · rw [hx, hy]; exact .error _ _
      · rw [hx, hy]; exact .ok hxy

theorem TemplatePart.fill_alike {xs ys : List String} (h : AlikeAll d us xs ys) (template : String)
    (part : TemplatePart) : BothOrNeither (Alike d us) (part.fill template xs) (part.fill template ys) := by
  cases part with
  | char c => exact .ok (alike_text _)
  | slot digits => exact fill_slot h template digits

theorem TemplatePart.fillAll_cons {R S : String → String → Prop} {xs ys : List String} {template : String}
    {part : TemplatePart} {parts : List TemplatePart}
    (hpart : BothOrNeither R (fill template xs part) (fill template ys part))
    (hparts : ∀ {s t}, R s t → BothOrNeither (fun s' t' => S (s ++ s') (t ++ t')) (fillAll template xs parts)
      (fillAll template ys parts)) :
    BothOrNeither S (fillAll template xs (part :: parts)) (fillAll template ys (part :: parts)) := by
  simp only [fillAll]
  generalize fill template xs part = x, fill template ys part = y at hpart ⊢
  cases hpart with
  | error e e' => exact .error _ _
  | ok hst =>
    have hrest := hparts hst
    generalize fillAll template xs parts = x', fillAll template ys parts = y' at hrest ⊢
    cases hrest with
    | error e e' => exact .error _ _
    | ok hst' => exact .ok hst'

theorem TemplatePart.fillAll_alike {xs ys : List String} (h : AlikeAll d us xs ys) (template : String) :
    ∀ parts, BothOrNeither (Alike d us) (fillAll template xs parts) (fillAll template ys parts)
  | [] => .ok (alike_text "")
  | part :: parts => fillAll_cons (fill_alike h template part) fun hst =>
    (fillAll_alike h template parts).mono fun _ _ hst' => hst.append hst'

theorem FunctionForm.apply_alike {xs ys : List String} (h : AlikeAll d us xs ys) (form : FunctionForm) :
    BothOrNeither (Alike d us) (form.apply xs) (form.apply ys) := by
  cases form with
  | standard name =>
    simp only [apply]
    exact .ok ((((alike_text name).append (alike_text "(")).append (h.intercalate ", ")).append (alike_text ")"))
  | noArguments name parens =>
    cases h with
    | nil => exact .ok (alike_text _)
    | cons _ _ => exact .error _ _
  | template text => exact TemplatePart.fillAll_alike h text _
  | variadic before separator after => exact .ok ((h.intercalate separator).around before after)

end

/-! ## Calls and matches -/

abbrev marked (d : Dialect) (table : Option Table) : RenderContext :=
  { dialect := d, table, parameterized := true }

abbrev inline (d : Dialect) (table : Option Table) : RenderContext :=
  { dialect := d, table, parameterized := false }

theorem call_alike {d : Dialect} (table : Option Table) {us : List Value} {xs ys : List String}
    (h : AlikeAll d us xs ys) (name : String) :
    BothOrNeither (Alike d us) ((marked d table).call name xs) ((inline d table).call name ys) := by
  simp only [RenderContext.call]
  split
  · exact .error _ _
  · exact FunctionForm.apply_alike h _

/-! ## Two runs side by side -/

section
variable {d : Dialect}

/-- After the parameters `vs`, both computations fail, or the first registers `ws` and the second succeeds
if and only if all of these have literals, with a result related to that of the first. -/
def Mirrors (d : Dialect) {α : Type} (R : List Value → α → α → Prop) (vs ws : List Value) (r r' : Render α) :
    Prop :=
  (∃ a b, r (ofValues vs) = (.ok a, ofValues (vs ++ ws)) ∧ R (vs ++ ws) a b ∧
    ((∀ w ∈ ws, d.HasLiteral w) → r' {} = (.ok b, {})) ∧
    ((∃ w ∈ ws, ¬ d.HasLiteral w) → ∃ e, r' {} = (.error e, {}))) ∨
  ((∃ e ps, r (ofValues vs) = (.error e, ps)) ∧ ∃ e, r' {} = (.error e, {}))

theorem mirrors_pure {α : Type} {R : List Value → α → α → Prop} {vs : List Value} {a b : α} (h : R vs a b) :
    Mirrors d R vs [] (pure a) (pure b) := by
  refine .inl ⟨a, b, ?_, ?_, fun _ => rfl, ?_⟩
  · rw [List.append_nil]; rfl
  · rwa [List.append_nil]
  · rintro ⟨w, hw, _⟩
    cases hw

theorem Mirrors.bind {α β : Type} {R : List Value → α → α → Prop} {S : List Value → β → β → Prop}
    {vs ws ws' : List Value} {r r' : Render α} {f f' : α → Render β} (hr : Mirrors d R vs ws r r')
    (hf : ∀ a b, R (vs ++ ws) a b → Mirrors d S (vs ++ ws) ws' (f a) (f' b)) :
    Mirrors d S vs (ws ++ ws') (r >>= f) (r' >>= f') := by
  simp only [Mirrors, Render.bind_apply]
  obtain ⟨a, b, ha, hab, hok, hbad⟩ | ⟨⟨e, ps, he⟩, e', he'⟩ := hr
  · rw [ha]
    by_cases hws : ∀ w ∈ ws, d.HasLiteral w
    · rw [hok hws]
      obtain ⟨a', b', ha', hab', hok', hbad'⟩ | ⟨he, he'⟩ := hf a b hab
      · rw [List.append_assoc] at ha' hab'
        refine .inl ⟨a', b', ha', hab', fun h => hok' fun w hw => h w (List.mem_append_right _ hw), ?_⟩
        rintro ⟨w, hw, hnone⟩
        refine hbad' ⟨w, (List.mem_append.mp hw).resolve_left fun h => hnone (hws w h), hnone⟩
      · exact .inr ⟨he, he'⟩
    · push Not at hws
      obtain ⟨e, he⟩ := hbad hws
      rw [he]
      obtain ⟨a', b', ha', hab', _⟩ | ⟨he, _⟩ := hf a b hab
      · rw [List.append_assoc] at ha' hab'
        obtain ⟨w, hw, hnone⟩ := hws
        refine .inl ⟨a', b', ha', hab', fun h => ?_, fun _ => ⟨e, rfl⟩⟩
        exact absurd (h w (List.mem_append_left _ hw)) hnone
      · exact .inr ⟨he, e, rfl⟩
  · rw [he, he']
    exact .inr ⟨⟨e, ps, rfl⟩, e', rfl⟩

theorem Mirrors.map {α β : Type} {R : List Value → α → α → Prop} {S : List Value → β → β → Prop}
    {vs ws : List Value} {r r' : Render α} (hr : Mirrors d R vs ws r r') {f f' : α → β}
    (hf : ∀ a b, R (vs ++ ws) a b → S (vs ++ ws) (f a) (f' b)) :
    Mirrors d S vs ws (r >>= fun a => pure (f a)) (r' >>= fun b => pure (f' b)) := by
  have := hr.bind fun a b hab => mirrors_pure (d := d) (hf a b hab)
  rwa [List.append_nil] at this

theorem mirrors_ofExcept {R : List Value → String → String → Prop} {vs : List Value} {x y : Except Error String}
    (h : BothOrNeither (R vs) x y) : Mirrors d R vs [] (Render.ofExcept x) (Render.ofExcept y) := by
  cases h with
  | ok hst => exact mirrors_pure hst
  | error e e' => exact .inr ⟨⟨e, _, rfl⟩, e', rfl⟩

end

/-! ## Relations of whole texts -/

def Opening (s : String) : Prop := ∀ c ∈ s.toList.getLast?, c ∈ [' ', '(']

instance (s : String) : Decidable (Opening s) := Option.decidableForallMem _

def Closing (s : String) : Prop := EndsOperand s.toList

instance (s : String) : Decidable (Closing s) := Option.decidableForallMem _

theorem opening_empty : Opening "" := by decide

theorem closing_empty : Closing "" := by decide

structure Separator (s : String) : Prop where
  ne : s ≠ ""
  closing : Closing s
  opening : Opening s

instance (s : String) : Decidable (Separator s) :=
  decidable_of_iff (s ≠ "" ∧ Closing s ∧ Opening s)
    ⟨fun h => ⟨h.1, h.2.1, h.2.2⟩, fun h => ⟨h.ne, h.closing, h.opening⟩⟩

theorem separator_spaced (word : String) : Separator (" " ++ word ++ " ") where
  ne h := by simpa using congrArg String.toList h
  closing := by simp [Closing, EndsOperand]
  opening := by
    have hlast : (" ".toList).getLast? = some ' ' := rfl
    intro c hc
    rw [String.toList_append, List.getLast?_append, hlast] at hc
    exact Option.some.inj hc ▸ by decide

theorem closing_escapeClause (ctx : RenderContext) (escape : Option Char) : Closing (ctx.escapeClause escape) := by
  cases escape with
  | none => exact closing_empty
  | some c => simp [Closing, EndsOperand, RenderContext.escapeClause]

/-- A relation of texts with placeholders and with literals, after some parameters, that the texts of a rendering
have if their operands have it. Operands are not joined to each other or to other text. -/
structure TextLaw (d : Dialect) (table : Option Table) (R : List Value → String → String → Prop) : Prop where
  text : ∀ us s, R us s s
  mono : ∀ {us s t}, R us s t → ∀ ws, R (us ++ ws) s t
  hole : ∀ us v, R (us ++ [v]) (d.parameter (generatedName us.length)) (d.spelled v)
  around : ∀ {us s t before after}, R us s t → Opening before → Closing after →
    R us (before ++ s ++ after) (before ++ t ++ after)
  between : ∀ {us s s' t t' sep}, R us s t → R us s' t' → Separator sep → R us (s ++ sep ++ s') (t ++ sep ++ t')
  call : ∀ {us xs ys}, List.Forall₂ (R us) xs ys → ∀ name,
    BothOrNeither (R us) ((marked d table).call name xs) ((inline d table).call name ys)

theorem alikeLaw (d : Dialect) (table : Option Table) : TextLaw d table (Alike d) where
  text _ s := alike_text s
  mono h ws := h.mono ws
  hole := alike_hole
  around h _ _ := h.around _ _
  between h h' _ := h.between h' _
  call h name := call_alike table h name

namespace TextLaw

variable {d : Dialect} {table : Option Table} {R : List Value → String → String → Prop} (law : TextLaw d table R)
include law

section
variable {us : List Value} {s s' t t' : String}

theorem before (h : R us s t) {text : String} (htext : Opening text) : R us (text ++ s) (text ++ t) := by
  simpa using law.around h htext closing_empty

theorem behind (h : R us s t) {text : String} (htext : Closing text) : R us (s ++ text) (t ++ text) := by
  simpa using law.around h opening_empty htext

theorem spaced (h : R us s t) (h' : R us s' t') (word : String) :
    R us (s ++ " " ++ word ++ " " ++ s') (t ++ " " ++ word ++ " " ++ t') := by
  simpa only [String.append_assoc] using law.between h h' (separator_spaced word)

theorem intercalate {xs ys : List String} (h : List.Forall₂ (R us) xs ys) {sep : String} (hsep : Separator sep) :
    R us (sep.intercalate xs) (sep.intercalate ys) :=
  intercalate_related (law.text us "") (fun hs ht => law.between hs ht hsep) h

theorem likeText (hs : R us s t) (hp : R us s' t') (ignoreCase : Bool) :
    BothOrNeither (R us) ((marked d table).likeText s s' ignoreCase) ((inline d table).likeText t t' ignoreCase) := by
  simp only [RenderContext.likeText]
  split
  · exact .ok (law.between hs hp (by decide))
  · split
    · exact .ok (law.between hs hp (by decide))
    · have hlow := law.call (.cons hs .nil) "lower"
      have hlow' := law.call (.cons hp .nil) "lower"
      generalize (marked d table).call "lower" [s] = x, (inline d table).call "lower" [t] = x' at hlow ⊢
      generalize (marked d table).call "lower" [s'] = y, (inline d table).call "lower" [t'] = y' at hlow' ⊢
      cases hlow with
      | error e e' => exact .error _ _
      | ok h =>
        cases hlow' with
        | error e e' => exact .error _ _
        | ok h' => exact .ok (law.between h h' (by decide))

end

theorem value (vs : List Value) (v : Value) :
    Mirrors d R vs (if v.isNull then [] else [v]) ((marked d table).value v) ((inline d table).value v) := by
  simp only [RenderContext.value]
  split
  · exact mirrors_pure (law.text _ "null")
  · refine .inl ⟨d.parameter (generatedName vs.length), d.spelled v, ?_, law.hole vs v, fun h => ?_, ?_⟩
    · simp only [if_true, Render.bind_apply, Render.register, ParameterSet.register_ofValues]
      rfl
    · obtain ⟨text, htext⟩ := h v List.mem_cons_self
      simp [Render.ofExcept, Dialect.spelled, htext]
    · rintro ⟨w, hw, hnone⟩
      rw [List.mem_singleton.mp hw] at hnone
      cases h : d.literal v with
      | ok text => exact absurd ⟨text, h⟩ hnone
      | error e => exact ⟨e, by simp [Render.ofExcept]⟩

mutual

theorem render : ∀ (e : Expr) (vs : List Value),
    Mirrors d R vs e.slots (e.render (marked d table)) (e.render (inline d table))
  | .field .., vs | .plain _, vs | .compareFields .., vs => by
    simp only [Expr.render, Expr.slots]; exact mirrors_pure (law.text _ _)
  | .literal v, vs => by
    simp only [Expr.render, Expr.slots]; exact law.value vs v
  | .compare left op right, vs => by
    simp only [Expr.render, Expr.slots]
    refine (render left vs).bind fun l l' hl => ?_
    cases h : RenderContext.nullComparison? op right with
    | some negated =>
      rw [Expr.slots_of_isNullLiteral (RenderContext.isNullLiteral_of_nullComparison? h)]
      exact mirrors_pure (law.behind hl (by cases negated <;> decide))
    | none => exact (render right _).map fun r r' hr => law.spaced (law.mono hl _) hr op.sql
  | .logical left op right, vs => by
    simp only [Expr.render, Expr.slots]
    refine (render left vs).bind fun l l' hl => ?_
    refine (render right _).map fun r r' hr => ?_
    have hopen : Opening "(" := by decide
    have hclose : Closing ")" := by decide
    simpa only [String.append_assoc] using law.around (law.spaced (law.mono hl _) hr op.sql) hopen hclose
  | .junction op [], vs => by
    simp only [Expr.render, Expr.slots, Expr.slotsAll]; exact mirrors_pure (law.text _ _)
  | .junction op (e :: es), vs => by
    simp only [Expr.render, Expr.slots, Expr.slotsAll]
    refine (render e vs).bind fun first first' hfirst => ?_
    refine (renderAll es _).map fun rest rest' hrest => ?_
    have hlist := law.intercalate (.cons (law.mono hfirst _) hrest) (separator_spaced op.sql)
    exact law.around hlist (by decide) (by decide)
  | .not expr, vs => by
    simp only [Expr.render, Expr.slots, RenderContext.negation]
    refine (render expr vs).map fun s s' hs => ?_
    split
    · exact law.around hs (by decide) (by decide)
    · exact law.before hs (by decide)
  | .isNull expr negated, vs => by
    simp only [Expr.render, Expr.slots]
    exact (render expr vs).map fun s s' hs => law.behind hs (by cases negated <;> decide)
  | .between expr low high, vs => by
    simp only [Expr.render, Expr.slots]
    refine (render expr vs).bind fun s s' hs => ?_
    refine (render low _).bind fun l l' hl => ?_
    refine (render high _).map fun h h' hh => ?_
    exact law.between (law.between (law.mono (law.mono hs _) _) (law.mono hl _) (by decide)) hh (by decide)
  | .inList expr [] negated, vs => by
    simp only [Expr.render, Expr.slots]; exact mirrors_pure (law.text _ _)
  | .inList expr (v :: values) negated, vs => by
    simp only [Expr.render, Expr.slots, Expr.slotsAll]
    refine (render expr vs).bind fun s s' hs => ?_
    refine (render v _).bind fun first first' hfirst => ?_
    refine (renderAll values _).map fun rest rest' hrest => ?_
    have hcomma : Separator ", " := by decide
    have hlist := law.intercalate (.cons (law.mono hfirst _) hrest) hcomma
    have hin : Separator (if negated then " not in (" else " in (") := by
      cases negated <;> decide
    exact law.behind (law.between (law.mono (law.mono hs _) _) hlist hin) (by decide)
  | .like expr pattern mode escape ignoreCase, vs => by
    simp only [Expr.render, Expr.slots]
    refine (render expr vs).bind fun s s' hs => ?_
    refine (law.value (vs ++ expr.slots) (.string (mode.decorate pattern))).bind fun p p' hp => ?_
    have htext := law.likeText (law.mono hs _) hp ignoreCase
    exact (mirrors_ofExcept htext).map fun t t' ht => law.behind ht (closing_escapeClause _ escape)
  | .function name args, vs => by
    simp only [Expr.render, Expr.slots]
    have := (renderAll args vs).bind fun xs ys h => mirrors_ofExcept (law.call h name)
    rwa [List.append_nil] at this
  | .aggregate name column, vs => by
    simp only [Expr.render, Expr.slots]
    exact mirrors_ofExcept (law.call (.cons (law.text _ _) .nil) name)
  | .select expr label distinct, vs => by
    simp only [Expr.render, Expr.slots]
    refine (render expr vs).map fun s s' hs => ?_
    have hlabel : Closing (match label with
      | some a => " as " ++ d.quote a
      | none => "") := by
      cases label with
      | none => exact closing_empty
      | some a => simp [Closing, EndsOperand]
    exact law.around hs (by cases distinct <;> decide) hlabel
  | .order expr ascending, vs => by
    simp only [Expr.render, Expr.slots]
    exact (render expr vs).map fun s s' hs => law.behind hs (by cases ascending <;> decide)

theorem renderAll : ∀ (es : List Expr) (vs : List Value),
    Mirrors d (fun us => List.Forall₂ (R us)) vs (Expr.slotsAll es) (Expr.renderAll (marked d table) es)
      (Expr.renderAll (inline d table) es)
  | [], vs => by
    simp only [Expr.renderAll, Expr.slotsAll]; exact mirrors_pure .nil
  | e :: es, vs => by
    simp only [Expr.renderAll, Expr.slotsAll]
    refine (render e vs).bind fun first first' hfirst => ?_
    exact (renderAll es _).map fun rest rest' hrest => .cons (law.mono hfirst _) hrest

end

end TextLaw

/-! ## Whole renderings -/

/-- With parameters and inline, a rendering fills the same segments: once with the placeholder of each
hole's parameter, once with the literal of the value registered under it. The inline one succeeds if
and only if the other does and every registered value has a literal. -/
theorem render_segments (d : Dialect) (table : Option Table) (e : Expr) :
    ∃ segments : List Segment,
      (∀ q, e.toQuery { dialect := d, table, parameterized := true } = .ok q →
        q.params.names.Nodup ∧ (∀ p v, .hole p v ∈ segments → q.params.get? p = some v) ∧
        q.sql = fillSegments (fun p _ => d.parameter p) segments) ∧
      (∀ q, e.toQuery { dialect := d, table, parameterized := false } = .ok q →
        ∀ spell : Value → String, (∀ v text, d.literal v = .ok text → spell v = text) →
          q = ⟨fillSegments (fun _ v => spell v) segments, {}⟩) ∧
      ((∃ q, e.toQuery { dialect := d, table, parameterized := false } = .ok q) ↔
        ∃ q, e.toQuery { dialect := d, table, parameterized := true } = .ok q ∧
          ∀ p v, q.params.get? p = some v → ∃ text, d.literal v = .ok text) := by
  simp only [Expr.toQuery, Render.toQuery]
  obtain ⟨s, t, hs, ⟨segments, hholes, rfl, rfl⟩, hok, hbad⟩ | ⟨⟨err, ps, herr⟩, err', herr'⟩ :=
    (alikeLaw d table).render e []
  · rw [List.nil_append] at hs hholes
    rw [← ParameterSet.ofValues_nil, hs]
    refine ⟨segments, ?_, ?_⟩
    · rintro q ⟨⟩
      exact ⟨ParameterSet.nodup_names_ofValues _,
        fun p v h => ParameterSet.get?_ofValues.mpr (hholes p v h), rfl⟩
    have hmarked : (∃ q : Query, Except.ok (ε := Error) ⟨fillSegments (fun p _ => d.parameter p) segments,
        ofValues e.slots⟩ = .ok q ∧ ∀ p v, q.params.get? p = some v → d.HasLiteral v) ↔
        ∀ w ∈ e.slots, d.HasLiteral w := by
      simpa using d.literals_iff e.slots
    by_cases hlit : ∀ w ∈ e.slots, d.HasLiteral w
    · rw [ParameterSet.ofValues_nil, hok hlit]
      refine ⟨?_, ⟨fun _ => hmarked.mpr hlit, fun _ => ⟨_, rfl⟩⟩⟩
      rintro q ⟨⟩ spell hspell
      congr 1
      refine fillSegments_congr fun p v h => Dialect.spelled_eq ?_ hspell
      exact (d.literals_iff e.slots).mpr hlit p v (ParameterSet.get?_ofValues.mpr (hholes p v h))
    · obtain ⟨err, herr⟩ := hbad (by push Not at hlit; exact hlit)
      rw [ParameterSet.ofValues_nil, herr]
      exact ⟨by simp, ⟨by simp, fun h => absurd (hmarked.mp h) hlit⟩⟩
  · rw [← ParameterSet.ofValues_nil, herr, ParameterSet.ofValues_nil, herr']
    exact ⟨[], by simp, by simp, by simp⟩

end SqlMapping
