import SqlMapping.Proofs.Dialect.Quoting
import SqlMapping.Proofs.Text.Digits
import Mathlib.Data.List.Induction

/-!
# Names for sizes

The names of a type follow the calls that put and clear them. `sized_names_follow_calls`: a length has the name that
was last put for the smallest capacity that holds it, or else the last default, and the numbers of a size stand in
all places of that name as if they were put in at once.
-/

namespace SqlMapping

/-! ## Places -/

inductive Measure where
  | length
  | precision
  | scale
  deriving DecidableEq

def Measure.letter : Measure → Char
  | .length => 'l'
  | .precision => 'p'
  | .scale => 's'

inductive NamePart where
  | char (c : Char)
  | place (m : Measure)
  deriving DecidableEq

def nameParts : List Char → List NamePart
  | '$' :: 'l' :: cs => .place .length :: nameParts cs
  | '$' :: 'p' :: cs => .place .precision :: nameParts cs
  | '$' :: 's' :: cs => .place .scale :: nameParts cs
  | c :: cs => .char c :: nameParts cs
  | [] => []

namespace NamePart

def written : NamePart → List Char
  | .char c => [c]
  | .place m => ['$', m.letter]

def filled (length precision scale : Nat) : NamePart → List Char
  | .char c => [c]
  | .place .length => Nat.toDigits 10 length
  | .place .precision => Nat.toDigits 10 precision
  | .place .scale => Nat.toDigits 10 scale

/-- A part when the places of one measure alone are filled. -/
def put (m : Measure) (n : Nat) (part : NamePart) : List NamePart :=
  if part = .place m then (Nat.toDigits 10 n).map .char else [part]

end NamePart

def NoLetter (cs : List Char) : Prop := ∀ m : Measure, cs.head? ≠ some m.letter

theorem nameParts_place (m : Measure) (cs : List Char) :
    nameParts ('$' :: m.letter :: cs) = .place m :: nameParts cs := by
  cases m <;> rfl

theorem nameParts_char {c : Char} {cs : List Char} (h : c = '$' → NoLetter cs) :
    nameParts (c :: cs) = .char c :: nameParts cs := by
  rw [nameParts]
  · rintro cs' rfl rfl
    exact h rfl .length rfl
  · rintro cs' rfl rfl
    exact h rfl .precision rfl
  · rintro cs' rfl rfl
    exact h rfl .scale rfl

theorem nameParts_append {cs : List Char} (h : '$' ∉ cs) (rest : List Char) :
    nameParts (cs ++ rest) = cs.map .char ++ nameParts rest := by
  induction cs with
  | nil => rfl
  | cons c cs ih =>
    rw [List.mem_cons, not_or] at h
    rw [List.cons_append, nameParts_char fun hc => absurd hc.symm h.1, ih h.2]
    rfl

/-- A text is read as places and characters from the left. -/
theorem nameParts_induction {P : List Char → Prop} (nil : P [])
    (place : ∀ m cs, P cs → P ('$' :: Measure.letter m :: cs))
    (char : ∀ c cs, (c = '$' → NoLetter cs) → P cs → P (c :: cs)) (cs : List Char) : P cs := by
  fun_induction nameParts cs with
  | case1 cs ih => exact place .length cs ih
  | case2 cs ih => exact place .precision cs ih
  | case3 cs ih => exact place .scale cs ih
  | case4 c cs hlength hprecision hscale ih =>
    refine char c cs ?_ ih
    rintro rfl m hm
    obtain ⟨rest, rfl⟩ := List.head?_eq_some_iff.mp hm
    cases m with
    | length => exact hlength rest rfl rfl
    | precision => exact hprecision rest rfl rfl
    | scale => exact hscale rest rfl rfl
  | case5 => exact nil

theorem flatMap_written (cs : List Char) : (nameParts cs).flatMap NamePart.written = cs := by
  induction cs using nameParts_induction with
  | nil => rfl
  | place m cs ih =>
    rw [nameParts_place, List.flatMap_cons, ih]
    rfl
  | char c cs hc ih =>
    rw [nameParts_char hc, List.flatMap_cons, ih]
    rfl

/-! ## One measure after the other -/

theorem dollar_not_mem_toDigits (n : Nat) : '$' ∉ Nat.toDigits 10 n := by
  intro h
  have := isDigit_toDigits n '$' h
  cases this

theorem noLetter_toDigits (n : Nat) (cs : List Char) : NoLetter (Nat.toDigits 10 n ++ cs) := by
  intro m hm
  obtain ⟨d, ds, hds⟩ := List.exists_cons_of_ne_nil (Nat.toDigits_ne_nil (b := 10) (n := n))
  rw [hds, List.cons_append, List.head?_cons] at hm
  have hdigit := isDigit_toDigits n d (by rw [hds]; exact List.mem_cons_self)
  rw [Option.some.inj hm] at hdigit
  cases m <;> cases hdigit

section
variable {m : Measure} {n : Nat} {cs : List Char}

theorem replacePair_place (m m' : Measure) (r cs : List Char) : replacePair '$' m.letter r ('$' :: m'.letter :: cs) =
    if m' = m then r ++ replacePair '$' m.letter r cs else '$' :: m'.letter :: replacePair '$' m.letter r cs := by
  have hletter : m'.letter = m.letter ↔ m' = m := by cases m' <;> cases m <;> decide
  have hdollar : m'.letter ≠ '$' := by cases m' <;> decide
  rw [replacePair, replacePair_cons_of_ne hdollar]
  simp only [hletter, true_and]

theorem replacePair_char {c : Char} (hc : c = '$' → NoLetter cs) (m : Measure) (r : List Char) :
    replacePair '$' m.letter r (c :: cs) = c :: replacePair '$' m.letter r cs := by
  by_cases hdollar : c = '$'
  · cases cs with
    | nil => rfl
    | cons y ys => rw [replacePair, if_neg fun h => hc hdollar m (congrArg some h.2)]
  · exact replacePair_cons_of_ne hdollar _ _ _

/-- A number begins with a digit, so no letter comes to stand behind a character. -/
theorem NoLetter.replacePair (h : NoLetter cs) : NoLetter (replacePair '$' m.letter (Nat.toDigits 10 n) cs) := by
  cases cs using nameParts_induction with
  | nil => exact h
  | place m' cs =>
    rw [replacePair_place]
    split
    · exact noLetter_toDigits n _
    · intro m'' hm''
      cases m'' <;> cases hm''
  | char c cs hc =>
    rw [replacePair_char hc]
    exact h

/-- Where one measure is put in, its places become digits, and no other place comes or goes. -/
theorem nameParts_replacePair (m : Measure) (n : Nat) (cs : List Char) :
    nameParts (replacePair '$' m.letter (Nat.toDigits 10 n) cs) = (nameParts cs).flatMap (NamePart.put m n) := by
  induction cs using nameParts_induction with
  | nil => rfl
  | place m' cs ih =>
    rw [replacePair_place, nameParts_place, List.flatMap_cons, ← ih]
    by_cases hm : m' = m
    · rw [if_pos hm, nameParts_append (dollar_not_mem_toDigits n), NamePart.put, if_pos (by rw [hm])]
    · rw [if_neg hm, nameParts_place, NamePart.put, if_neg (by simpa using hm)]
      rfl
  | char c cs hc ih =>
    rw [replacePair_char hc, nameParts_char fun h => (hc h).replacePair, nameParts_char hc, List.flatMap_cons, ih]
    rfl

end

theorem flatMap_chars {f : NamePart → List Char} (hf : ∀ c, f (.char c) = [c]) (cs : List Char) :
    (cs.map NamePart.char).flatMap f = cs := by
  rw [List.flatMap_map]
  simp only [hf]
  exact List.flatMap_singleton' cs

def fillAtOnce (template : String) (length precision scale : Nat) : String :=
  String.ofList ((nameParts template.toList).flatMap (NamePart.filled length precision scale))

theorem fillTypeName_eq (template : String) (length precision scale : Nat) :
    fillTypeName template length precision scale = fillAtOnce template length precision scale := by
  have hdigits : ∀ n : Nat, (toString n).toList = Nat.toDigits 10 n := fun _ => Nat.toList_repr
  have hfill : fillTypeName template length precision scale = String.ofList
      (replacePair '$' Measure.scale.letter (Nat.toDigits 10 scale)
        (replacePair '$' Measure.precision.letter (Nat.toDigits 10 precision)
          (replacePair '$' Measure.length.letter (Nat.toDigits 10 length) template.toList))) := by
    simp only [fillTypeName, hdigits, Measure.letter]
  rw [hfill, fillAtOnce, ← flatMap_written (replacePair _ Measure.scale.letter _ _)]
  simp only [nameParts_replacePair, List.flatMap_assoc]
  congr 2
  funext part
  cases part with
  | char c => rfl
  | place m =>
    cases m with
    | length => exact flatMap_chars (fun _ => rfl) _
    | precision => exact (List.flatMap_singleton ..).trans (flatMap_chars (fun _ => rfl) _)
    | scale =>
      exact (List.flatMap_singleton ..).trans ((List.flatMap_singleton ..).trans (flatMap_chars (fun _ => rfl) _))

/-! ## Capacities -/

abbrev IncreasingCapacities (sized : List (Nat × String)) : Prop := sized.Pairwise fun e e' => e.1 < e'.1

section
variable {sized : List (Nat × String)} {capacity : Nat} {template : String}

theorem mem_insertCapacity (h : IncreasingCapacities sized) {e : Nat × String} :
    e ∈ insertCapacity capacity template sized ↔ e = (capacity, template) ∨ e ∈ sized ∧ e.1 ≠ capacity := by
  induction sized with
  | nil => simp [insertCapacity]
  | cons e' sized ih =>
    obtain ⟨hlt, hsized⟩ := List.pairwise_cons.mp h
    rw [insertCapacity]
    split_ifs with hless heq
    · have hne : ∀ e ∈ e' :: sized, e.1 ≠ capacity := by
        intro e he
        obtain rfl | he := List.mem_cons.mp he
        · exact hless.ne'
        · exact (hless.trans (hlt e he)).ne'
      rw [List.mem_cons]
      exact or_congr_right ⟨fun he => ⟨he, hne e he⟩, And.left⟩
    · have hne : ∀ e ∈ sized, e.1 ≠ capacity := fun e he => heq ▸ (hlt e he).ne'
      rw [List.mem_cons, List.mem_cons]
      refine or_congr_right ⟨fun he => ⟨.inr he, hne e he⟩, fun ⟨he, hcapacity⟩ => he.resolve_left ?_⟩
      rintro rfl
      exact hcapacity heq.symm
    · rw [List.mem_cons, List.mem_cons, ih hsized]
      constructor
      · rintro (rfl | rfl | ⟨he, hcapacity⟩)
        · exact .inr ⟨.inl rfl, Ne.symm heq⟩
        · exact .inl rfl
        · exact .inr ⟨.inr he, hcapacity⟩
      · rintro (rfl | ⟨rfl | he, hcapacity⟩)
        · exact .inr (.inl rfl)
        · exact .inl rfl
        · exact .inr (.inr ⟨he, hcapacity⟩)

theorem increasing_insertCapacity (h : IncreasingCapacities sized) (capacity : Nat) (template : String) :
    IncreasingCapacities (insertCapacity capacity template sized) := by
  induction sized with
  | nil => exact List.pairwise_singleton _ _
  | cons e' sized ih =>
    obtain ⟨hlt, hsized⟩ := List.pairwise_cons.mp h
    rw [insertCapacity]
    split_ifs with hless heq
    · refine List.pairwise_cons.mpr ⟨fun e he => ?_, h⟩
      obtain rfl | he := List.mem_cons.mp he
      · exact hless
      · exact hless.trans (hlt e he)
    · exact List.pairwise_cons.mpr ⟨fun e he => heq ▸ hlt e he, hsized⟩
    · refine List.pairwise_cons.mpr ⟨fun e he => ?_, ih hsized⟩
      obtain rfl | ⟨he, -⟩ := (mem_insertCapacity hsized).mp he
      · show e'.1 < capacity
        omega
      · exact hlt e he

/-- Where capacities increase, the first that holds a length is the smallest. -/
theorem find?_capacity_eq_some_iff (h : IncreasingCapacities sized) {length : Nat} :
    sized.find? (fun e => length ≤ e.1) = some (capacity, template) ↔
      (capacity, template) ∈ sized ∧ length ≤ capacity ∧ ∀ e ∈ sized, length ≤ e.1 → capacity ≤ e.1 := by
  rw [List.find?_eq_some_iff_append]
  constructor
  · rintro ⟨henough, before, after, rfl, hbefore⟩
    refine ⟨by simp, of_decide_eq_true henough, fun e he hlength => ?_⟩
    obtain he | rfl | he := by simpa only [List.mem_append, List.mem_cons] using he
    · have hshort := hbefore e he
      simp [hlength] at hshort
    · exact le_rfl
    · have hafter := List.pairwise_append.mp h
      exact ((List.pairwise_cons.mp hafter.2.1).1 e he).le
  · rintro ⟨hmem, henough, hsmallest⟩
    obtain ⟨before, after, rfl⟩ := List.append_of_mem hmem
    refine ⟨decide_eq_true henough, before, after, rfl, fun e he => ?_⟩
    have hlt : e.1 < capacity := (List.pairwise_append.mp h).2.2 e he _ List.mem_cons_self
    have hnot : ¬ length ≤ e.1 := fun hlength => by
      have := hsmallest e (List.mem_append_left _ he) hlength
      omega
    simp [hnot]

end

/-! ## Calls -/

inductive TypeNameCall where
  | add (type : DbType) (template : String) (capacity? : Option Nat)
  | clear (type : DbType)

namespace TypeEntry

def Has (e : TypeEntry) (template : String) : Option Nat → Prop
  | none => e.default = some template
  | some capacity => (capacity, template) ∈ e.sized

end TypeEntry

namespace TypeNames

def call (ts : TypeNames) : TypeNameCall → TypeNames
  | .add type template capacity? => ts.add type template capacity?
  | .clear type => ts.clear type

def afterAll (calls : List TypeNameCall) : TypeNames := calls.foldl call []

/-- The call that put the name is the last for its capacity, or for the default, and no later one clears the type. -/
def LastPut (calls : List TypeNameCall) (type : DbType) (template : String) (capacity? : Option Nat) : Prop :=
  ∃ before after, calls = before ++ .add type template capacity? :: after ∧
    ∀ c ∈ after, c ≠ .clear type ∧ ∀ t, c ≠ .add type t capacity?

inductive NameFor (calls : List TypeNameCall) (type : DbType) (length : Nat) (template : String) : Prop where
  | sized {capacity : Nat} (last : LastPut calls type template (some capacity)) (enough : length ≤ capacity)
    (smallest : ∀ t c, LastPut calls type t (some c) → length ≤ c → capacity ≤ c)
  | default (last : LastPut calls type template none) (above : ∀ t c, LastPut calls type t (some c) → c < length)

variable {ts : TypeNames} {type : DbType}

theorem lastPut_concat {calls : List TypeNameCall} {c : TypeNameCall} {template : String} {capacity? : Option Nat} :
    LastPut (calls ++ [c]) type template capacity? ↔ c = .add type template capacity? ∨
      (c ≠ .clear type ∧ ∀ t, c ≠ .add type t capacity?) ∧ LastPut calls type template capacity? := by
  constructor
  · rintro ⟨before, after, hcalls, hafter⟩
    obtain rfl | ⟨after, c', rfl⟩ := List.eq_nil_or_concat after
    · exact .inl (List.singleton_inj.mp (List.append_inj_right' hcalls rfl))
    · rw [List.concat_eq_append] at hcalls hafter
      rw [← List.cons_append, ← List.append_assoc] at hcalls
      obtain ⟨hbefore, hc⟩ := List.append_inj' hcalls rfl
      obtain rfl := List.singleton_inj.mp hc
      exact .inr ⟨hafter c (by simp), before, after, hbefore, fun c' hc' => hafter c' (List.mem_append_left _ hc')⟩
  · rintro (rfl | ⟨hc, before, after, rfl, hafter⟩)
    · exact ⟨calls, [], rfl, by simp⟩
    · refine ⟨before, after ++ [c], by simp, fun c' hc' => ?_⟩
      obtain hc' | hc' := List.mem_append.mp hc'
      · exact hafter c' hc'
      · exact List.mem_singleton.mp hc' ▸ hc

/-! ## One call -/

theorem entry_insert_self (ts : TypeNames) (type : DbType) (e : TypeEntry) :
    TypeNames.entry (ts.insert type e) type = e := by
  rw [entry, Keyed.find?_insert_self, Option.getD_some]

theorem entry_insert_of_ne {type' : DbType} (h : type ≠ type') (e : TypeEntry) :
    TypeNames.entry (ts.insert type' e) type = ts.entry type := by
  rw [entry, Keyed.find?_insert_of_ne _ _ h, entry]

structure WellKept (ts : TypeNames) : Prop where
  types : (ts.map Prod.fst).Nodup
  capacities : ∀ type, IncreasingCapacities (ts.entry type).sized

theorem WellKept.insert (h : ts.WellKept) {e : TypeEntry} (he : IncreasingCapacities e.sized) (type : DbType) :
    WellKept (ts.insert type e) := by
  refine ⟨Keyed.nodup_insert h.types type e, fun type' => ?_⟩
  by_cases htype : type' = type
  · rw [htype, entry_insert_self]
    exact he
  · rw [entry_insert_of_ne htype]
    exact h.capacities type'

theorem entry_clear_self (h : ts.WellKept) (type : DbType) : (ts.clear type).entry type = {} := by
  rw [entry, clear, Keyed.find?_erase_self h.types, Option.getD_none]

theorem entry_clear_of_ne {type' : DbType} (h : type ≠ type') : (ts.clear type').entry type = ts.entry type := by
  rw [entry, clear, Keyed.find?_erase_of_ne _ h, entry]

theorem WellKept.call (h : ts.WellKept) (c : TypeNameCall) : (ts.call c).WellKept := by
  cases c with
  | add type template capacity? =>
    cases capacity? with
    | none =>
      have hsame : IncreasingCapacities { ts.entry type with default := some template }.sized := h.capacities type
      exact h.insert hsame type
    | some capacity => exact h.insert (increasing_insertCapacity (h.capacities type) capacity template) type
  | clear type =>
    refine ⟨Keyed.nodup_erase h.types type, fun type' => ?_⟩
    show IncreasingCapacities ((ts.clear type).entry type').sized
    by_cases htype : type' = type
    · rw [htype, entry_clear_self h]
      exact .nil
    · rw [entry_clear_of_ne htype]
      exact h.capacities type'

theorem has_add (h : ts.WellKept) (t : String) (for? : Option Nat) (template : String) (capacity? : Option Nat) :
    ((ts.add type t for?).entry type).Has template capacity? ↔
      t = template ∧ for? = capacity? ∨ for? ≠ capacity? ∧ (ts.entry type).Has template capacity? := by
  cases for? with
  | none =>
    have hentry : (ts.add type t none).entry type = { ts.entry type with default := some t } :=
      entry_insert_self ts type _
    rw [hentry]
    cases capacity? <;> simp [TypeEntry.Has]
  | some capacity' =>
    have hentry : (ts.add type t (some capacity')).entry type =
        { ts.entry type with sized := insertCapacity capacity' t (ts.entry type).sized } :=
      entry_insert_self ts type _
    rw [hentry]
    cases capacity? with
    | none => simp [TypeEntry.Has]
    | some capacity =>
      simp only [TypeEntry.Has, mem_insertCapacity (h.capacities type)]
      grind

theorem has_call (h : ts.WellKept) (c : TypeNameCall) (template : String) (capacity? : Option Nat) :
    ((ts.call c).entry type).Has template capacity? ↔ c = .add type template capacity? ∨
      (c ≠ .clear type ∧ ∀ t, c ≠ .add type t capacity?) ∧ (ts.entry type).Has template capacity? := by
  cases c with
  | add type' t for? =>
    by_cases htype : type' = type
    · subst htype
      simp [call, has_add h]
    · have hentry : (ts.add type' t for?).entry type = ts.entry type := by
        cases for? <;> exact entry_insert_of_ne (Ne.symm htype) _
      simp [call, hentry, htype]
  | clear type' =>
    by_cases htype : type' = type
    · subst htype
      simp only [call, entry_clear_self h]
      cases capacity? <;> simp [TypeEntry.Has]
    · simp [call, entry_clear_of_ne (Ne.symm htype), htype]

/-! ## Any calls -/

theorem afterAll_concat (calls : List TypeNameCall) (c : TypeNameCall) :
    afterAll (calls ++ [c]) = (afterAll calls).call c := by
  simp [afterAll]

theorem wellKept_afterAll (calls : List TypeNameCall) : (afterAll calls).WellKept := by
  induction calls using List.reverseRecOn with
  | nil => exact ⟨.nil, fun _ => .nil⟩
  | append_singleton calls c ih =>
    rw [afterAll_concat]
    exact ih.call c

theorem has_afterAll (calls : List TypeNameCall) (type : DbType) (template : String) (capacity? : Option Nat) :
    ((afterAll calls).entry type).Has template capacity? ↔ LastPut calls type template capacity? := by
  induction calls using List.reverseRecOn with
  | nil => cases capacity? <;> simp [afterAll, entry, Keyed.find?, TypeEntry.Has, LastPut]
  | append_singleton calls c ih => rw [afterAll_concat, has_call (wellKept_afterAll calls), ih, lastPut_concat]

theorem mem_sized_afterAll {calls : List TypeNameCall} {template : String} {capacity : Nat} :
    (capacity, template) ∈ ((afterAll calls).entry type).sized ↔ LastPut calls type template (some capacity) :=
  has_afterAll calls type template (some capacity)

theorem get?_afterAll {calls : List TypeNameCall} {template : String} :
    (afterAll calls).get? type = some template ↔ LastPut calls type template none :=
  has_afterAll calls type template none

theorem template?_eq_some_iff {calls : List TypeNameCall} {length : Nat} {template : String} :
    (afterAll calls).template? type length = some template ↔ NameFor calls type length template := by
  have hincreasing := (wellKept_afterAll calls).capacities type
  rw [template?]
  cases hfind : ((afterAll calls).entry type).sized.find? fun e => length ≤ e.1 with
  | none =>
    have hshort : ∀ t c, LastPut calls type t (some c) → c < length := by
      intro t c hlast
      simpa using List.find?_eq_none.mp hfind (c, t) (mem_sized_afterAll.mpr hlast)
    show (afterAll calls).get? type = some template ↔ _
    rw [get?_afterAll]
    constructor
    · exact fun hlast => .default hlast hshort
    · rintro (⟨hlast, henough, -⟩ | ⟨hlast, -⟩)
      · exact absurd henough (Nat.not_le.mpr (hshort _ _ hlast))
      · exact hlast
  | some e =>
    obtain ⟨c, t⟩ := e
    obtain ⟨hmem, henough, hsmallest⟩ := (find?_capacity_eq_some_iff hincreasing).mp hfind
    show some t = some template ↔ _
    constructor
    · rintro ⟨⟩
      exact .sized (mem_sized_afterAll.mp hmem) henough fun t' c' hlast =>
        hsmallest (c', t') (mem_sized_afterAll.mpr hlast)
    · rintro (⟨hlast, henough', hsmallest'⟩ | ⟨-, habove⟩)
      · have hfound := (find?_capacity_eq_some_iff hincreasing).mpr ⟨mem_sized_afterAll.mpr hlast, henough',
          fun e he => hsmallest' e.2 e.1 (mem_sized_afterAll.mp he)⟩
        rw [hfind] at hfound
        cases hfound
        rfl
      · exact absurd henough (Nat.not_le.mpr (habove t c (mem_sized_afterAll.mp hmem)))

theorem template?_eq_none_iff {calls : List TypeNameCall} {length : Nat} :
    (afterAll calls).template? type length = none ↔
      (∀ t c, LastPut calls type t (some c) → c < length) ∧ ∀ t, ¬ LastPut calls type t none := by
  simp only [← mem_sized_afterAll, ← get?_afterAll, ← Option.eq_none_iff_forall_ne_some]
  rw [template?]
  cases hfind : ((afterAll calls).entry type).sized.find? fun e => length ≤ e.1 with
  | none =>
    have hshort : ∀ t c, (c, t) ∈ ((afterAll calls).entry type).sized → c < length := by
      intro t c hmem
      simpa using List.find?_eq_none.mp hfind (c, t) hmem
    exact (and_iff_right hshort).symm
  | some e =>
    have henough : length ≤ e.1 := by simpa using List.find?_some hfind
    refine iff_of_false (by simp) fun ⟨hshort, _⟩ => ?_
    have := hshort e.2 e.1 (List.mem_of_find?_eq_some hfind)
    omega

/-- After any calls a length has the name that was last put for the smallest capacity that holds it, since the type was
last cleared, or else the last default since then, or none. The text is that of all places filled at once: where the
places of one measure are filled, none of the others comes or goes. -/
theorem sized_names_follow_calls (calls : List TypeNameCall) (type : DbType) (length precision scale : Nat) :
    (∀ text, (afterAll calls).getSized? type length precision scale = some text ↔
      ∃ template, NameFor calls type length template ∧ text = fillAtOnce template length precision scale) ∧
      ((afterAll calls).getSized? type length precision scale = none ↔
        (∀ t c, LastPut calls type t (some c) → c < length) ∧ ∀ t, ¬ LastPut calls type t none) ∧
      ∀ (m : Measure) (n : Nat) (cs : List Char),
        nameParts (replacePair '$' m.letter (toString n).toList cs) = (nameParts cs).flatMap (NamePart.put m n) := by
  refine ⟨fun text => ?_, ?_, fun m n cs => ?_⟩
  · rw [getSized?, Option.map_eq_some_iff]
    simp only [template?_eq_some_iff, fillTypeName_eq, @eq_comm _ text]
  · rw [getSized?, Option.map_eq_none_iff, template?_eq_none_iff]
  · have hdigits : (toString n).toList = Nat.toDigits 10 n := Nat.toList_repr
    rw [hdigits, nameParts_replacePair]

example : (afterAll [.add .string "text" none, .add .string "text($l)" (some 20), .clear .string,
    .add .string "$$p$s" (some 9), .add .string "$$lp($l)" (some 9)]).getSized? .string 9 12 3 = some "$9p(9)" := by
  decide

end TypeNames

end SqlMapping
