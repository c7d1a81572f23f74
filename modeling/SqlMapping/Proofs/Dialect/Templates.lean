import SqlMapping.Dialect.FunctionForm
import Mathlib.Data.List.Forall2

/-!
# Templates of functions

The places of a template are its `?` with digits behind them, each with all the digits that there are.
`template_places_filled`: a call puts each argument as it is into the places of its number, or fails at the first
place of which the number is that of no argument. Nothing that is put in is read, however deep calls stand in calls.
-/

namespace SqlMapping

/-! ## Failures -/

def TemplatePart.error? (template : String) (count : Nat) : TemplatePart → Option Error
  | .char _ => none
  | .slot digits =>
    let index := natOfDigits digits
    if greatestIndex < index then some (.invalidArgument (.placeholderTooLarge (String.ofList digits)))
    else if index = 0 ∨ count < index then some (.invalidArgument (.missingArgument template index count))
    else none

def FunctionForm.error? (form : FunctionForm) (count : Nat) : Option Error :=
  match form with
  | .standard _ | .variadic .. => none
  | .noArguments name _ => if count = 0 then none else some (.invalidArgument (.takesNoArguments name count))
  | .template text => (TemplatePart.split none text.toList).findSome? (TemplatePart.error? text count)

/-- A result for which `Q` holds, or the error if there is one. -/
def EndsAs {α : Type} (Q : α → Prop) (r : Except Error α) : Option Error → Prop
  | none => ∃ a, r = .ok a ∧ Q a
  | some e => r = .error e

abbrev EndsWith {α : Type} (r : Except Error α) (e : Option Error) : Prop := EndsAs (fun _ => True) r e

theorem endsWith_ok {α : Type} (a : α) : EndsWith (.ok a) none := ⟨a, rfl, trivial⟩

theorem EndsWith.exists_ok_iff {α : Type} {r : Except Error α} {e? : Option Error} (h : EndsWith r e?) :
    (∃ a, r = .ok a) ↔ e? = none := by
  cases e? with
  | none => exact ⟨fun _ => rfl, fun _ => h.imp fun _ ha => ha.1⟩
  | some e =>
    have hr : r = .error e := h
    simp [hr]

theorem EndsWith.eq_error_iff {α : Type} {r : Except Error α} {e? : Option Error} (h : EndsWith r e?) {e : Error} :
    r = .error e ↔ e? = some e := by
  cases e? with
  | none =>
    obtain ⟨a, ha, -⟩ := h
    simp [ha]
  | some e' =>
    have hr : r = .error e' := h
    simp [hr]

theorem TemplatePart.endsWith_fill (template : String) (args : List String) (part : TemplatePart) :
    EndsWith (part.fill template args) (part.error? template args.length) := by
  cases part with
  | char c => exact endsWith_ok _
  | slot digits =>
    simp only [fill, error?]
    split
    · rfl
    by_cases hzero : natOfDigits digits = 0
    · rw [if_pos hzero, if_pos (.inl hzero)]
      rfl
    rw [if_neg hzero]
    by_cases hcount : args.length < natOfDigits digits
    · rw [if_pos (.inr hcount), List.getElem?_eq_none (by omega)]
      rfl
    · have hindex : natOfDigits digits - 1 < args.length := by omega
      rw [if_neg (not_or.mpr ⟨hzero, hcount⟩), List.getElem?_eq_getElem hindex]
      exact endsWith_ok _

theorem TemplatePart.endsWith_fillAll (template : String) (args : List String) : ∀ parts : List TemplatePart,
    EndsWith (fillAll template args parts) (parts.findSome? (error? template args.length))
  | [] => endsWith_ok _
  | part :: parts => by
    have hpart := part.endsWith_fill template args
    have hparts := endsWith_fillAll template args parts
    simp only [fillAll, List.findSome?_cons]
    cases herror : part.error? template args.length with
    | some e =>
      rw [herror] at hpart
      have hfill : part.fill template args = .error e := hpart
      simp only [hfill]
      rfl
    | none =>
      rw [herror] at hpart
      obtain ⟨text, htext, -⟩ := hpart
      simp only [htext]
      cases hrest : parts.findSome? (error? template args.length) with
      | some e =>
        rw [hrest] at hparts
        have hfill : fillAll template args parts = .error e := hparts
        simp only [hfill]
        rfl
      | none =>
        rw [hrest] at hparts
        obtain ⟨rest, hrest, -⟩ := hparts
        simp only [hrest]
        exact endsWith_ok _

theorem FunctionForm.endsWith_apply (form : FunctionForm) (args : List String) :
    EndsWith (form.apply args) (form.error? args.length) := by
  cases form with
  | standard _ | variadic _ _ _ => exact endsWith_ok _
  | noArguments name parens =>
    cases args with
    | nil => exact endsWith_ok _
    | cons _ _ => rfl
  | template text => exact TemplatePart.endsWith_fillAll text args _

namespace TemplatePart

/-! ## The places of a template -/

def EndsDigits (cs : List Char) : Prop := ∀ c, cs.head? = some c → c.isDigit = false

/-- A template and its parts. A place has some digits and leaves none behind it, and a `?` is a character only in front
of no digit. -/
inductive Divides : List Char → List TemplatePart → Prop where
  | nil : Divides [] []
  | char {c : Char} {cs : List Char} {parts : List TemplatePart} (lone : c = '?' → EndsDigits cs) :
    Divides cs parts → Divides (c :: cs) (.char c :: parts)
  | slot {digits cs : List Char} {parts : List TemplatePart} (nonempty : digits ≠ [])
    (all : ∀ c ∈ digits, c.isDigit = true) (maximal : EndsDigits cs) :
    Divides cs parts → Divides ('?' :: (digits ++ cs)) (.slot digits :: parts)

theorem endsDigits_dropWhile (cs : List Char) : EndsDigits (cs.dropWhile Char.isDigit) := by
  intro c hc
  have hnot := List.head?_dropWhile_not Char.isDigit cs
  rwa [hc] at hnot

theorem EndsDigits.takeWhile {cs : List Char} (h : EndsDigits cs) : cs.takeWhile Char.isDigit = [] := by
  cases cs with
  | nil => rfl
  | cons c cs => exact List.takeWhile_cons_of_neg (by simp [h c rfl])

theorem EndsDigits.dropWhile {cs : List Char} (h : EndsDigits cs) : cs.dropWhile Char.isDigit = cs := by
  cases cs with
  | nil => rfl
  | cons c cs => exact List.dropWhile_cons_of_neg (by simp [h c rfl])

theorem split_some (cs : List Char) : ∀ digits : List Char, split (some digits) cs =
    ofMark (digits ++ cs.takeWhile Char.isDigit) :: split none (cs.dropWhile Char.isDigit) := by
  induction cs with
  | nil => intro digits; simp [split]
  | cons c cs ih =>
    intro digits
    by_cases hdigit : c.isDigit = true
    · rw [split, if_pos hdigit, ih, List.takeWhile_cons_of_pos hdigit, List.dropWhile_cons_of_pos hdigit,
        List.append_assoc, List.singleton_append]
    · rw [split, if_neg hdigit, List.takeWhile_cons_of_neg hdigit, List.dropWhile_cons_of_neg hdigit, List.append_nil,
        split]
      split <;> rfl

theorem split_mark (cs : List Char) : split none ('?' :: cs) =
    ofMark (cs.takeWhile Char.isDigit) :: split none (cs.dropWhile Char.isDigit) := by
  rw [split, if_pos rfl, split_some, List.nil_append]

theorem split_of_divides {cs : List Char} {parts : List TemplatePart} (h : Divides cs parts) :
    split none cs = parts := by
  induction h with
  | nil => rfl
  | @char c cs parts lone _ ih =>
    by_cases hmark : c = '?'
    · subst hmark
      rw [split_mark, (lone rfl).takeWhile, (lone rfl).dropWhile, ih]
      rfl
    · rw [split, if_neg hmark, ih]
  | @slot digits cs parts nonempty all maximal _ ih =>
    rw [split_mark, List.takeWhile_append_of_pos all, List.dropWhile_append_of_pos all, maximal.takeWhile,
      maximal.dropWhile, List.append_nil, ih, ofMark, if_neg (by simpa using nonempty)]

theorem divides_split (cs : List Char) : Divides cs (split none cs) := by
  -- a place is left with all its digits at once, so the induction is on the length
  induction hlength : cs.length using Nat.strongRecOn generalizing cs with
  | _ n ih =>
    cases cs with
    | nil => exact .nil
    | cons c cs =>
      rw [List.length_cons] at hlength
      by_cases hmark : c = '?'
      · subst hmark
        rw [split_mark]
        have hshorter := (List.dropWhile_suffix Char.isDigit (l := cs)).length_le
        have hrest := ih _ (by omega) (cs.dropWhile Char.isDigit) rfl
        have hends := endsDigits_dropWhile cs
        have hcs := List.takeWhile_append_dropWhile (p := Char.isDigit) (l := cs)
        by_cases hnone : cs.takeWhile Char.isDigit = []
        · rw [hnone, List.nil_append] at hcs
          rw [hcs] at hrest hends
          rw [hnone, hcs]
          exact .char (fun _ => hends) hrest
        · have hslot := Divides.slot hnone (List.all_eq_true.mp List.all_takeWhile) hends hrest
          rw [hcs] at hslot
          rwa [ofMark, if_neg (by simpa using hnone)]
      · rw [split, if_neg hmark]
        exact .char (fun h => absurd h hmark) (ih _ (by omega) cs rfl)

theorem divides_iff {cs : List Char} {parts : List TemplatePart} : Divides cs parts ↔ parts = split none cs :=
  ⟨fun h => (split_of_divides h).symm, fun h => h ▸ divides_split cs⟩

/-! ## Filling the places -/

/-- The number of a place fits 64 bits, and is one of so many arguments, counted from 1. -/
def HasArgument (count : Nat) : TemplatePart → Prop
  | .char _ => True
  | .slot digits => natOfDigits digits < UInt64.size ∧ 1 ≤ natOfDigits digits ∧ natOfDigits digits ≤ count

theorem error?_eq_none_iff {template : String} {count : Nat} {part : TemplatePart} :
    part.error? template count = none ↔ part.HasArgument count := by
  cases part with
  | char c => simp [error?, HasArgument]
  | slot digits =>
    have hsize : greatestIndex + 1 = UInt64.size := rfl
    simp only [error?, HasArgument]
    split_ifs with hlarge hcount
    · exact iff_of_false (by simp) (by omega)
    · exact iff_of_false (by simp) (by omega)
    · exact iff_of_true rfl (by omega)

inductive Filled (args : List String) : TemplatePart → String → Prop where
  | char (c : Char) : Filled args (.char c) (String.singleton c)
  | slot {digits : List Char} {i : Nat} {arg : String} (number : natOfDigits digits = i + 1)
    (argument : args[i]? = some arg) : Filled args (.slot digits) arg

section
variable {template : String} {args : List String}

theorem filled_of_fill {part : TemplatePart} {text : String} (h : part.fill template args = .ok text) :
    Filled args part text := by
  cases part with
  | char c =>
    cases h
    exact .char c
  | slot digits =>
    simp only [fill] at h
    split_ifs at h with hlarge hzero
    split at h
    · rename_i arg harg
      cases h
      exact .slot (by omega) harg
    · cases h

theorem filled_of_fillAll : ∀ {parts : List TemplatePart} {text : String}, fillAll template args parts = .ok text →
    ∃ texts, List.Forall₂ (Filled args) parts texts ∧ text = String.join texts
  | [], _, h => ⟨[], .nil, (Except.ok.inj h).symm⟩
  | part :: parts, text, h => by
    simp only [fillAll] at h
    split at h
    · cases h
    rename_i here hhere
    split at h
    · cases h
    rename_i rest hrest
    obtain ⟨texts, htexts, rfl⟩ := filled_of_fillAll hrest
    exact ⟨here :: texts, .cons (filled_of_fill hhere) htexts, by rw [String.join_cons, Except.ok.inj h]⟩

end

end TemplatePart

/-! ## Calls in calls -/

/-- A template with its arguments, which are texts that have a number, or calls again. -/
inductive NestedCall where
  | text (n : Nat)
  | call (template : String) (args : List NestedCall)

def writtenOut (texts : Nat → String) (pieces : List (Char ⊕ Nat)) : String :=
  String.ofList (pieces.flatMap (Sum.elim (fun c => [c]) fun n => (texts n).toList))

theorem writtenOut_append (texts : Nat → String) (ps qs : List (Char ⊕ Nat)) :
    writtenOut texts (ps ++ qs) = writtenOut texts ps ++ writtenOut texts qs := by
  simp only [writtenOut, List.flatMap_append, String.ofList_append]

namespace NestedCall

mutual

def apply (texts : Nat → String) : NestedCall → Except Error String
  | .text n => .ok (texts n)
  | .call template args =>
    match applyAll texts args with
    | .error e => .error e
    | .ok args => (FunctionForm.template template).apply args

def applyAll (texts : Nat → String) : List NestedCall → Except Error (List String)
  | [] => .ok []
  | c :: cs =>
    match apply texts c with
    | .error e => .error e
    | .ok arg =>
      match applyAll texts cs with
      | .error e => .error e
      | .ok args => .ok (arg :: args)

end

end NestedCall

/-- A part that is filled with pieces is written as pieces, whatever their texts. -/
theorem TemplatePart.exists_fill (template : String) (args : List (List (Char ⊕ Nat))) (part : TemplatePart) :
    ∃ r : Except Error (List (Char ⊕ Nat)), ∀ texts,
      part.fill template (args.map (writtenOut texts)) = r.map (writtenOut texts) := by
  cases part with
  | char c => exact ⟨.ok [.inl c], fun texts => by simp [fill, writtenOut, Except.map]⟩
  | slot digits =>
    simp only [fill, List.length_map, List.getElem?_map]
    split_ifs with hlarge hzero
    · exact ⟨.error _, fun _ => rfl⟩
    · exact ⟨.error _, fun _ => rfl⟩
    · cases args[natOfDigits digits - 1]? with
      | none => exact ⟨.error _, fun _ => rfl⟩
      | some arg => exact ⟨.ok arg, fun _ => rfl⟩

theorem TemplatePart.exists_fillAll (template : String) (args : List (List (Char ⊕ Nat))) :
    ∀ parts : List TemplatePart, ∃ r : Except Error (List (Char ⊕ Nat)), ∀ texts,
      fillAll template (args.map (writtenOut texts)) parts = r.map (writtenOut texts)
  | [] => ⟨.ok [], fun _ => rfl⟩
  | part :: parts => by
    obtain ⟨here, hhere⟩ := part.exists_fill template args
    obtain ⟨rest, hrest⟩ := exists_fillAll template args parts
    simp only [fillAll, hhere, hrest]
    cases here with
    | error e => exact ⟨.error e, fun _ => rfl⟩
    | ok here =>
      cases rest with
      | error e => exact ⟨.error e, fun _ => rfl⟩
      | ok rest => exact ⟨.ok (here ++ rest), fun texts => by simp [Except.map, writtenOut_append]⟩

namespace NestedCall

mutual

theorem exists_apply : ∀ c : NestedCall, ∃ r : Except Error (List (Char ⊕ Nat)), ∀ texts,
    c.apply texts = r.map (writtenOut texts)
  | .text n => ⟨.ok [.inr n], fun texts => by simp [apply, writtenOut, Except.map]⟩
  | .call template args => by
    obtain ⟨rs, hargs⟩ := exists_applyAll args
    simp only [apply, hargs]
    cases rs with
    | error e => exact ⟨.error e, fun _ => rfl⟩
    | ok rs => exact TemplatePart.exists_fillAll template rs _

theorem exists_applyAll : ∀ cs : List NestedCall, ∃ rs : Except Error (List (List (Char ⊕ Nat))), ∀ texts,
    applyAll texts cs = rs.map fun rs => rs.map (writtenOut texts)
  | [] => ⟨.ok [], fun _ => rfl⟩
  | c :: cs => by
    obtain ⟨r, hr⟩ := exists_apply c
    obtain ⟨rs, hrs⟩ := exists_applyAll cs
    simp only [applyAll, hr, hrs]
    cases r with
    | error e => exact ⟨.error e, fun _ => rfl⟩
    | ok r =>
      cases rs with
      | error e => exact ⟨.error e, fun _ => rfl⟩
      | ok rs => exact ⟨.ok (r :: rs), fun _ => rfl⟩

end

end NestedCall

/-- There is one division of a template. A call ends well if and only if each place has its argument, and then each
argument stands in its places and all other characters where they were. A call that fails does so at the first place
that has none. Texts at which calls within calls end are written as they are, and nothing depends on what they are. -/
theorem template_places_filled :
    (∀ template : String, ∃ parts : List TemplatePart,
      (∀ ps, TemplatePart.Divides template.toList ps ↔ ps = parts) ∧
      ∀ args : List String,
        ((∃ text, (FunctionForm.template template).apply args = .ok text) ↔
          ∀ part ∈ parts, part.HasArgument args.length) ∧
        (∀ text, (FunctionForm.template template).apply args = .ok text →
          ∃ texts, List.Forall₂ (TemplatePart.Filled args) parts texts ∧ text = String.join texts) ∧
        ∀ e, (FunctionForm.template template).apply args = .error e ↔
          ∃ before digits behind, parts = before ++ .slot digits :: behind ∧
            (∀ part ∈ before, part.HasArgument args.length) ∧
            (TemplatePart.slot digits).error? template args.length = some e) ∧
      ∀ c : NestedCall, ∃ r : Except Error (List (Char ⊕ Nat)), ∀ texts, c.apply texts = r.map (writtenOut texts) := by
  refine ⟨fun template => ⟨TemplatePart.split none template.toList, fun _ => TemplatePart.divides_iff, fun args => ?_⟩,
    NestedCall.exists_apply⟩
  have hends := (FunctionForm.template template).endsWith_apply args
  refine ⟨?_, fun text => TemplatePart.filled_of_fillAll, fun e => ?_⟩
  · rw [hends.exists_ok_iff, FunctionForm.error?, List.findSome?_eq_none_iff]
    simp only [TemplatePart.error?_eq_none_iff]
  · rw [hends.eq_error_iff, FunctionForm.error?, List.findSome?_eq_some_iff]
    simp only [TemplatePart.error?_eq_none_iff]
    constructor
    · rintro ⟨before, part, behind, hparts, he, hbefore⟩
      cases part with
      | char c => cases he
      | slot digits => exact ⟨before, digits, behind, hparts, hbefore, he⟩
    · rintro ⟨before, digits, behind, hparts, hbefore, he⟩
      exact ⟨before, .slot digits, behind, hparts, he, hbefore⟩

example : (NestedCall.call "concat(?2, ' ?', ?01)" [.call "mod(?1, ?2)" [.text 0, .text 1], .text 2]).apply
    (fun n => "?p_" ++ toString n) = .ok "concat(?p_2, ' ?', mod(?p_0, ?p_1))" := by decide

end SqlMapping
