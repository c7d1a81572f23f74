import SqlMapping.Proofs.Criteria.Literals
import SqlMapping.Proofs.Criteria.Modes
import SqlMapping.Proofs.Criteria.References

/-!
# Literals in conditions

Rendered inline, a condition has a literal where it has a placeholder with parameters. In the built-in dialects
nothing is joined to such a place (`standLaw`), so a reader that comes to it takes the literal and goes on behind it.
-/

namespace SqlMapping

open ParameterSet (ofValues)

/-! ## Places that nothing is joined to -/

theorem Closing.append {a b : String} (ha : Closing a) (hb : Closing b) : Closing (a ++ b) := by
  intro c hc
  rw [String.toList_append, List.head?_append] at hc
  cases h : a.toList.head? with
  | none => exact hb c (by rwa [h, Option.none_or] at hc)
  | some c' => exact ha c (by rw [h, Option.some_or] at hc; rwa [h])

theorem Closing.before {a : String} (ha : Closing a) (hne : a ≠ "") (b : String) : Closing (a ++ b) := by
  intro c hc
  rw [String.toList_append, List.head?_append_of_ne_nil _ (by simpa using hne)] at hc
  exact ha c hc

theorem Opening.append {a b : String} (ha : Opening a) (hb : Opening b) : Opening (a ++ b) := by
  intro c hc
  rw [String.toList_append, List.getLast?_append] at hc
  cases h : b.toList.getLast? with
  | none => exact ha c (by rwa [h, Option.none_or] at hc)
  | some c' => exact hb c (by rw [h, Option.some_or] at hc; rwa [h])

theorem Opening.behind {b : String} (hb : Opening b) (hne : b ≠ "") (a : String) : Opening (a ++ b) := by
  intro c hc
  rw [String.toList_append, List.getLast?_append_of_ne_nil _ (by simpa using hne)] at hc
  exact hb c hc

/-- However the holes are filled, each has the start, a blank or an opening parenthesis in front of it, and the end, a
blank, a comma or a closing parenthesis behind it. -/
def StandAlone (segments : List Segment) : Prop :=
  ∀ f before p v after, segments = before ++ .hole p v :: after →
    Opening (fillSegments f before) ∧ Closing (fillSegments f after)

theorem standAlone_text (s : String) : StandAlone [.text s] := by
  intro f before p v after h
  rcases before with _ | ⟨x, _ | ⟨y, before⟩⟩ <;> cases h

theorem standAlone_hole (p : String) (v : Value) : StandAlone [.hole p v] := by
  intro f before p' v' after h
  rcases before with _ | ⟨x, _ | ⟨y, before⟩⟩
  · cases h
    exact ⟨opening_empty, closing_empty⟩
  · cases h
  · cases h

/-- A place among more segments is a place among those in front, or among those behind. -/
theorem append_eq_hole {xs ys before after : List Segment} {p : String} {v : Value}
    (h : xs ++ ys = before ++ .hole p v :: after) :
    (∃ rest, xs = before ++ .hole p v :: rest ∧ after = rest ++ ys) ∨
      ∃ rest, ys = rest ++ .hole p v :: after ∧ before = xs ++ rest := by
  rcases List.append_eq_append_iff.mp h with ⟨mid, hbefore, hmid⟩ | ⟨mid, hxs, hmid⟩
  · exact .inr ⟨mid, hmid, hbefore⟩
  · rcases mid with _ | ⟨x, mid⟩
    · exact .inr ⟨[], hmid.symm, by rw [hxs, List.append_nil, List.append_nil]⟩
    · obtain ⟨rfl, hafter⟩ := List.cons.inj hmid
      exact .inl ⟨mid, hxs, hafter⟩

theorem StandAlone.before {xs : List Segment} (h : StandAlone xs) {text : String} (htext : Opening text) :
    StandAlone (.text text :: xs) := by
  intro f before p v after hsplit
  rcases before with _ | ⟨x, before⟩
  · cases hsplit
  · obtain ⟨rfl, hxs⟩ := List.cons.inj hsplit
    obtain ⟨hopening, hclosing⟩ := h f before p v after hxs
    exact ⟨htext.append hopening, hclosing⟩

theorem StandAlone.behind {xs : List Segment} (h : StandAlone xs) {text : String} (htext : Closing text) :
    StandAlone (xs ++ [.text text]) := by
  intro f before p v after hsplit
  rcases append_eq_hole hsplit with ⟨rest, hxs, rfl⟩ | ⟨rest, hrest, -⟩
  · obtain ⟨hopening, hclosing⟩ := h f before p v rest hxs
    refine ⟨hopening, ?_⟩
    rw [fillSegments_append]
    exact hclosing.append (htext.append closing_empty)
  · exact absurd hrest.symm (by rcases rest with _ | ⟨x, _ | _⟩ <;> simp)

theorem StandAlone.between {xs ys : List Segment} (hx : StandAlone xs) (hy : StandAlone ys) {sep : String}
    (hsep : Separator sep) : StandAlone (xs ++ .text sep :: ys) := by
  intro f before p v after hsplit
  rcases append_eq_hole hsplit with ⟨rest, hxs, rfl⟩ | ⟨_ | ⟨x, rest⟩, hrest, rfl⟩
  · obtain ⟨hopening, hclosing⟩ := hx f before p v rest hxs
    refine ⟨hopening, ?_⟩
    rw [fillSegments_append]
    exact hclosing.append (hsep.closing.before hsep.ne _)
  · cases hrest
  · obtain ⟨rfl, hys⟩ := List.cons.inj hrest
    obtain ⟨hopening, hclosing⟩ := hy f rest p v after hys
    refine ⟨?_, hclosing⟩
    have hne : sep ++ fillSegments f rest ≠ "" := fun h => hsep.ne (String.append_eq_empty_iff.mp h).1
    rw [fillSegments_append]
    exact (hsep.opening.append hopening).behind hne _

/-! ## Texts with such places -/

section
variable (d : Dialect)

def AlikeAlone (us : List Value) (s t : String) : Prop :=
  ∃ segments, StandAlone segments ∧ (∀ p v, .hole p v ∈ segments → (p, v) ∈ (ofValues us).entries) ∧
    s = fillSegments (fun p _ => d.parameter p) segments ∧ t = fillSegments (fun _ v => d.spelled v) segments

variable {d} {us : List Value} {s s' t t' : String}

theorem alikeAlone_text (s : String) : AlikeAlone d us s s :=
  ⟨[.text s], standAlone_text s, by simp, by simp [fillSegments], by simp [fillSegments]⟩

theorem alikeAlone_hole (us : List Value) (v : Value) :
    AlikeAlone d (us ++ [v]) (d.parameter (generatedName us.length)) (d.spelled v) :=
  ⟨[.hole (generatedName us.length) v], standAlone_hole _ v, by simp [ofValues], by simp [fillSegments],
    by simp [fillSegments]⟩

theorem AlikeAlone.mono (h : AlikeAlone d us s t) (ws : List Value) : AlikeAlone d (us ++ ws) s t := by
  obtain ⟨xs, halone, hxs, hs, ht⟩ := h
  exact ⟨xs, halone, fun p v h => (ParameterSet.entries_prefix us ws).subset (hxs p v h), hs, ht⟩

theorem AlikeAlone.before (h : AlikeAlone d us s t) {text : String} (htext : Opening text) :
    AlikeAlone d us (text ++ s) (text ++ t) := by
  obtain ⟨xs, halone, hxs, rfl, rfl⟩ := h
  exact ⟨.text text :: xs, halone.before htext, by simpa using hxs, rfl, rfl⟩

theorem AlikeAlone.behind (h : AlikeAlone d us s t) {text : String} (htext : Closing text) :
    AlikeAlone d us (s ++ text) (t ++ text) := by
  obtain ⟨xs, halone, hxs, rfl, rfl⟩ := h
  exact ⟨xs ++ [.text text], halone.behind htext, by simpa using hxs, by simp [fillSegments_append, fillSegments],
    by simp [fillSegments_append, fillSegments]⟩

theorem AlikeAlone.around {before after : String} (h : AlikeAlone d us s t) (hbefore : Opening before)
    (hafter : Closing after) : AlikeAlone d us (before ++ s ++ after) (before ++ t ++ after) :=
  (h.before hbefore).behind hafter

theorem AlikeAlone.between {sep : String} (h : AlikeAlone d us s t) (h' : AlikeAlone d us s' t')
    (hsep : Separator sep) : AlikeAlone d us (s ++ sep ++ s') (t ++ sep ++ t') := by
  obtain ⟨xs, halone, hxs, rfl, rfl⟩ := h
  obtain ⟨ys, halone', hys, rfl, rfl⟩ := h'
  refine ⟨xs ++ .text sep :: ys, halone.between halone' hsep, fun p v hmem => ?_, ?_, ?_⟩
  · simp only [List.mem_append, List.mem_cons, reduceCtorEq, false_or] at hmem
    exact hmem.elim (hxs p v) (hys p v)
  · rw [fillSegments_append, fillSegments, String.append_assoc]
  · rw [fillSegments_append, fillSegments, String.append_assoc]

end

/-! ## Function forms -/

namespace TemplatePart

/-- Whether no slot is joined to anything, in parts behind a text and, if told so, a slot in front of that. -/
def separated : Bool → List Char → List TemplatePart → Bool
  | true, text, [] => decide (Closing (String.ofList text))
  | false, _, [] => true
  | slotBefore, text, .char c :: parts => separated slotBefore (text ++ [c]) parts
  | true, text, .slot _ :: parts => decide (Separator (String.ofList text)) && separated true [] parts
  | false, text, .slot _ :: parts => decide (Opening (String.ofList text)) && separated true [] parts

end TemplatePart

namespace FunctionForm

def separated : FunctionForm → Bool
  | .standard _ | .noArguments .. => true
  | .template text => TemplatePart.separated false [] (TemplatePart.split none text.toList)
  | .variadic before separator after => decide (Opening before ∧ Separator separator ∧ Closing after)

end FunctionForm

section
variable {d : Dialect} {us : List Value}

namespace TemplatePart

/-- What the parts in front have been filled to: a text, behind a filled slot or not. -/
inductive Front (d : Dialect) (us : List Value) (text : List Char) : Bool → String → String → Prop
  | start : Front d us text false (String.ofList text) (String.ofList text)
  | behind {s t : String} (h : AlikeAlone d us s t) :
    Front d us text true (s ++ String.ofList text) (t ++ String.ofList text)

theorem Front.char {text : List Char} {slotBefore : Bool} {s t : String} (h : Front d us text slotBefore s t)
    (c : Char) : Front d us (text ++ [c]) slotBefore (s ++ c.toString) (t ++ c.toString) := by
  have htext : String.ofList text ++ c.toString = String.ofList (text ++ [c]) := by
    rw [String.ofList_append]
    rfl
  cases h with
  | start => rw [htext]; exact .start
  | behind h => rw [String.append_assoc, String.append_assoc, htext]; exact .behind h

theorem separated_char (slotBefore : Bool) (text : List Char) (c : Char) (parts : List TemplatePart) :
    separated slotBefore text (.char c :: parts) = separated slotBefore (text ++ [c]) parts := by
  cases slotBefore <;> rfl

theorem Front.slot {text digits : List Char} {parts : List TemplatePart} {slotBefore : Bool} {s t : String}
    (h : Front d us text slotBefore s t) (hparts : separated slotBefore text (.slot digits :: parts) = true) :
    separated true [] parts = true ∧ ∀ {x y}, AlikeAlone d us x y → Front d us [] true (s ++ x) (t ++ y) := by
  have hbehind {x y : String} (hxy : AlikeAlone d us x y) : Front d us [] true x y := by
    simpa only [String.ofList_nil, String.append_empty] using @Front.behind d us [] x y hxy
  cases h with
  | start =>
    obtain ⟨htext, hparts⟩ := Bool.and_eq_true_iff.mp hparts
    exact ⟨hparts, fun hxy => hbehind (hxy.before (of_decide_eq_true htext))⟩
  | behind h =>
    obtain ⟨htext, hparts⟩ := Bool.and_eq_true_iff.mp hparts
    exact ⟨hparts, fun hxy => hbehind (h.between hxy (of_decide_eq_true htext))⟩

theorem fillAll_alone {xs ys : List String} (h : List.Forall₂ (AlikeAlone d us) xs ys) (template : String)
    {parts : List TemplatePart} : ∀ {slotBefore : Bool} {text : List Char} {s t : String},
    separated slotBefore text parts = true → Front d us text slotBefore s t →
      BothOrNeither (fun s' t' => AlikeAlone d us (s ++ s') (t ++ t')) (fillAll template xs parts)
        (fillAll template ys parts) := by
  -- The front grows part by part, and `separated` looks at the text of the front when the next slot or the end comes.
  induction parts with
  | nil =>
    intro slotBefore text s t hparts hfront
    refine .ok ?_
    rw [String.append_empty, String.append_empty]
    cases hfront with
    | start => exact alikeAlone_text _
    | behind h => exact h.behind (of_decide_eq_true hparts)
  | cons part parts ih =>
    intro slotBefore text s t hparts hfront
    cases part with
    | char c =>
      rw [separated_char] at hparts
      have hchar : BothOrNeither (fun x y => x = c.toString ∧ y = c.toString) (fill template xs (.char c))
        (fill template ys (.char c)) := .ok ⟨rfl, rfl⟩
      refine fillAll_cons hchar ?_
      rintro _ _ ⟨rfl, rfl⟩
      simpa only [String.append_assoc] using ih hparts (hfront.char c)
    | slot digits =>
      obtain ⟨hparts, hslot⟩ := hfront.slot hparts
      refine fillAll_cons (fill_slot h template digits) fun hxy => ?_
      simpa only [String.append_assoc] using ih hparts (hslot hxy)

end TemplatePart

theorem FunctionForm.apply_alone {form : FunctionForm} (hform : form.separated = true) {xs ys : List String}
    (h : List.Forall₂ (AlikeAlone d us) xs ys) :
    BothOrNeither (AlikeAlone d us) (form.apply xs) (form.apply ys) := by
  have hlist {sep : String} (hsep : Separator sep) : AlikeAlone d us (sep.intercalate xs) (sep.intercalate ys) :=
    intercalate_related (alikeAlone_text "") (fun hs ht => hs.between ht hsep) h
  cases form with
  | standard name =>
    have hopen : Opening "(" := by decide
    exact .ok ((hlist (by decide)).around (hopen.behind (by decide) name) (by decide))
  | noArguments name parens =>
    cases h with
    | nil => exact .ok (alikeAlone_text _)
    | cons _ _ => exact .error _ _
  | template text =>
    have hfilled := TemplatePart.fillAll_alone h text hform .start
    exact hfilled.mono fun s t hst => by simpa only [String.ofList_nil, String.empty_append] using hst
  | variadic before separator after =>
    obtain ⟨hbefore, hseparator, hafter⟩ : Opening before ∧ Separator separator ∧ Closing after :=
      of_decide_eq_true hform
    exact .ok ((hlist hseparator).around hbefore hafter)

end

/-! ## Built-in dialects -/

theorem separated_of_builtIn : ∀ d ∈ Dialect.builtIn, d.functions.all (fun f => f.2.separated) = true := by
  have hstandard : Dialect.standardFunctions.all (fun f => f.2.separated) = true :=
    Functions.all_registerAll (by decide) (by decide)
  intro d hd
  simp only [Dialect.builtIn, List.mem_cons, List.not_mem_nil, or_false] at hd
  rcases hd with rfl | rfl | rfl | rfl | rfl | rfl
  · exact hstandard
  all_goals exact Functions.all_registerAll (by decide) hstandard

theorem standLaw {d : Dialect} (hd : d ∈ Dialect.builtIn) (table : Option Table) :
    TextLaw d table (AlikeAlone d) where
  text _ s := alikeAlone_text s
  mono h ws := h.mono ws
  hole := alikeAlone_hole
  around h hbefore hafter := h.around hbefore hafter
  between h h' hsep := h.between h' hsep
  call h name := by
    simp only [RenderContext.call]
    split
    · exact .error _ _
    · rename_i form hform
      have hseparated := List.all_eq_true.mp (separated_of_builtIn d hd) _ (Keyed.mem_of_find? hform)
      exact FunctionForm.apply_alone hseparated h

/-! ## Literals in their places -/

/-- A value stands as its literal in a text, joined to nothing, and a reader that comes to it takes the literal. -/
structure Dialect.PlacesLiteral (d : Dialect) (before : String) (v : Value) (after : String) : Prop where
  literal : d.literal v = .ok (d.spelled v)
  opening : Opening before
  closing : Closing after
  read : v.ProperDecimal → d.readLiteral ((d.spelled v).toList ++ after.toList) = some after.toList

theorem placesLiteral {d : Dialect} (hd : d ∈ Dialect.builtIn) {before after : String} {v : Value}
    (hv : d.HasLiteral v) (hbefore : Opening before) (hafter : Closing after) : d.PlacesLiteral before v after := by
  obtain ⟨text, htext⟩ := hv
  have hspelled : d.spelled v = text := by rw [Dialect.spelled, htext]
  refine ⟨by rw [hspelled, htext], hbefore, hafter, fun hproper => ?_⟩
  rw [hspelled]
  exact Dialect.readLiteral_literal (Dialect.spellsLiterals_of_builtIn hd) hproper htext hafter

/-- An inline query places a literal where the query with parameters has one of these. -/
theorem inline_places {d : Dialect} (hd : d ∈ Dialect.builtIn) {table : Option Table} {e : Expr} {q : Query}
    (hq : e.toQuery (inline d table) = .ok q) :
    ∃ segments, q.sql = fillSegments (fun _ v => d.spelled v) segments ∧
      (∃ q', e.toQuery (marked d table) = .ok q' ∧ q'.sql = fillSegments (fun p _ => d.parameter p) segments ∧
        ∀ p v, .hole p v ∈ segments → q'.params.get? p = some v) ∧
      ∀ before p v after, segments = before ++ .hole p v :: after →
        d.PlacesLiteral (fillSegments (fun _ v => d.spelled v) before) v
          (fillSegments (fun _ v => d.spelled v) after) := by
  simp only [Expr.toQuery, Render.toQuery] at hq ⊢
  obtain ⟨s, t, hs, ⟨segments, halone, hholes, rfl, rfl⟩, hok, hbad⟩ | ⟨-, e', he'⟩ := (standLaw hd table).render e []
  · by_cases hlit : ∀ w ∈ e.slots, d.HasLiteral w
    · rw [hok hlit] at hq
      obtain rfl := Except.ok.inj hq
      rw [List.nil_append] at hs hholes
      rw [← ParameterSet.ofValues_nil, hs]
      have hget (p : String) (v : Value) (h : .hole p v ∈ segments) : (ofValues e.slots).get? p = some v :=
        ParameterSet.get?_ofValues.mpr (hholes p v h)
      refine ⟨segments, rfl, ⟨_, rfl, rfl, hget⟩, fun before p v after hsplit => ?_⟩
      have hv : d.HasLiteral v := (d.literals_iff e.slots).mpr hlit p v (hget p v (by simp [hsplit]))
      obtain ⟨hopening, hclosing⟩ := halone _ before p v after hsplit
      exact placesLiteral hd hv hopening hclosing
    · push Not at hlit
      obtain ⟨e', he'⟩ := hbad hlit
      rw [he'] at hq
      cases hq
  · rw [he'] at hq
    cases hq

end SqlMapping
