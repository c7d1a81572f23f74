import SqlMapping.Proofs.Text.Letters

/-!
# Patterns

In a pattern `%` stands for any text and `_` for any character, and every other character for itself. So does the
wildcard or escape character that an escape character stands before. `matchesPattern_lowered`: a pattern and a text in
lower case match as the pattern and the text do without regard to case, if the lower case brings in no escape character
and takes none away. `escapesKept_of_lowered`: for a pattern that is well-formed there is no other way that they do for
every text.
-/

namespace SqlMapping

/-! ## Reading and matching -/

inductive PatternPart where
  | anyText
  | anyChar
  | char (c : Char)

def isWildcard (c : Char) : Bool := c == '%' || c == '_'

def PatternPart.ofChar (c : Char) : PatternPart :=
  if c = '%' then .anyText else if c = '_' then .anyChar else .char c

/-- The parts of a pattern, if it is well-formed: an escape character is not the last one, and, unless the reading is
lenient, a wildcard or an escape character follows it. -/
def readPattern (lenient : Bool) (escape : Option Char) : List Char → Option (List PatternPart)
  | [] => some []
  | [c] => if escape = some c then none else some [.ofChar c]
  | c :: x :: cs =>
    if escape = some c then
      if lenient || isWildcard x || x == c then (readPattern lenient escape cs).map (.char x :: ·) else none
    else (readPattern lenient escape (x :: cs)).map (.ofChar c :: ·)

/-- Whether the parts make up the whole text. `same` says which characters a character of the pattern stands for. -/
def matchesParts (same : Char → Char → Bool) : List PatternPart → List Char → Bool
  | [], s => s.isEmpty
  | .anyText :: parts, s => s.tails.any (matchesParts same parts)
  | .anyChar :: _, [] => false
  | .anyChar :: parts, _ :: s => matchesParts same parts s
  | .char _ :: _, [] => false
  | .char c :: parts, x :: s => same c x && matchesParts same parts s

def matchesPattern (lenient : Bool) (same : Char → Char → Bool) (escape : Option Char) (pattern text : String) : Bool :=
  match readPattern lenient escape pattern.toList with
  | none => false
  | some parts => matchesParts same parts text.toList

def sameLetter (c x : Char) : Bool := c.toLower == x.toLower

/-- In the pattern, the escape character and no other becomes the escape character in lower case. -/
def EscapesKept (escape : Option Char) (pattern : String) : Prop :=
  ∀ x ∈ pattern.toList, escape = some x.toLower ↔ escape = some x

instance (escape : Option Char) (pattern : String) : Decidable (EscapesKept escape pattern) :=
  inferInstanceAs (Decidable (∀ x ∈ pattern.toList, escape = some x.toLower ↔ escape = some x))

/-! ## Characters -/

theorem isWildcard_toLower (x : Char) : isWildcard x.toLower = isWildcard x := by
  have hpercent : x.toLower = '%' ↔ x = '%' := toLower_eq_iff rfl
  have hunderscore : x.toLower = '_' ↔ x = '_' := toLower_eq_iff rfl
  refine Bool.eq_iff_iff.mpr ?_
  simp only [isWildcard, Bool.or_eq_true, beq_iff_eq, hpercent, hunderscore]

/-- Only a letter that is an escape character can be brought in or taken away. -/
theorem escapesKept_of_not_isAlpha {escape : Option Char} (h : ∀ c ∈ escape, c.isAlpha = false) (pattern : String) :
    EscapesKept escape pattern := by
  intro x _
  cases escape with
  | none => simp
  | some c =>
    have hc : x.toLower = c ↔ x = c := toLower_eq_iff (h c rfl)
    simp only [Option.some.injEq, @eq_comm _ c, hc]

/-! ## Lower case -/

namespace PatternPart

def lower : PatternPart → PatternPart
  | .anyText => .anyText
  | .anyChar => .anyChar
  | .char c => .char c.toLower

theorem ofChar_toLower (c : Char) : ofChar c.toLower = (ofChar c).lower := by
  have hpercent : c.toLower = '%' ↔ c = '%' := toLower_eq_iff rfl
  have hunderscore : c.toLower = '_' ↔ c = '_' := toLower_eq_iff rfl
  simp only [ofChar, hpercent, hunderscore]
  split
  · rfl
  · split <;> rfl

end PatternPart

theorem readPattern_toLower {lenient : Bool} {escape : Option Char} : ∀ {cs : List Char},
    (∀ x ∈ cs, escape = some x.toLower ↔ escape = some x) →
      readPattern lenient escape (cs.map Char.toLower) = (readPattern lenient escape cs).map (·.map .lower)
  | [], _ => rfl
  | [c], h => by
    have hc := h c List.mem_cons_self
    simp only [List.map_cons, List.map_nil, readPattern, hc]
    split
    · rfl
    · simp [PatternPart.ofChar_toLower]
  | c :: x :: cs, h => by
    have hc := h c List.mem_cons_self
    have hx := h x (List.mem_cons_of_mem c List.mem_cons_self)
    have hrest := List.forall_mem_cons.mp (List.forall_mem_cons.mp h).2
    simp only [List.map_cons, readPattern, hc]
    split
    · rename_i hescape
      -- the escape character is its own lower case
      have hlower : c.toLower = c := Option.some.inj ((hc.mpr hescape).symm.trans hescape)
      have hsame : (x.toLower == c.toLower) = (x == c) := by
        have hx' : c = x.toLower ↔ c = x := by simpa only [hescape, Option.some.injEq] using hx
        rw [Bool.eq_iff_iff, beq_iff_eq, beq_iff_eq, hlower, eq_comm, hx', eq_comm]
      rw [isWildcard_toLower, hsame, readPattern_toLower hrest.2]
      split
      · simp [Function.comp_def, PatternPart.lower]
      · rfl
    · have htail : readPattern lenient escape (x.toLower :: cs.map Char.toLower) =
          (readPattern lenient escape (x :: cs)).map (·.map .lower) :=
        readPattern_toLower (List.forall_mem_cons.mp h).2
      rw [htail]
      simp [Function.comp_def, PatternPart.ofChar_toLower]

theorem matchesParts_toLower : ∀ (parts : List PatternPart) (s : List Char),
    matchesParts (· == ·) (parts.map .lower) (s.map Char.toLower) = matchesParts sameLetter parts s
  | [], s => by simp [matchesParts]
  | .anyText :: parts, s => by
    simp only [List.map_cons, PatternPart.lower, matchesParts, List.map_tails, List.any_map]
    congr 1
    funext rest
    exact matchesParts_toLower parts rest
  | .anyChar :: parts, [] | .char c :: parts, [] => rfl
  | .anyChar :: parts, x :: s => matchesParts_toLower parts s
  | .char c :: parts, x :: s => by
    simp only [List.map_cons, PatternPart.lower, matchesParts, matchesParts_toLower parts s, sameLetter]

def matchesLowered (lenient : Bool) (escape : Option Char) (pattern text : String) : Bool :=
  matchesPattern lenient (· == ·) escape (foldCase pattern) (foldCase text)

theorem matchesPattern_lowered {escape : Option Char} {pattern : String} (h : EscapesKept escape pattern)
    (lenient : Bool) (text : String) :
    matchesLowered lenient escape pattern text = matchesPattern lenient sameLetter escape pattern text := by
  rw [matchesLowered, matchesPattern, matchesPattern, toList_foldCase, toList_foldCase, readPattern_toLower h]
  cases readPattern lenient escape pattern.toList with
  | none => rfl
  | some parts => exact matchesParts_toLower parts text.toList

/-! ## Weights

To tell a pattern from its lower case where an escape letter is brought in or taken away, texts and patterns are
weighed. A text that matches weighs no less than the parts of the pattern, and there is one that weighs as much.
-/

/-- The escape letter in any case weighs twice as much as a wildcard, and no other character weighs anything. -/
def charWeight (escape x : Char) : Nat :=
  if x.toLower = escape.toLower then 2 else if isWildcard x then 1 else 0

def textWeight (escape : Char) (s : List Char) : Nat := (s.map (charWeight escape)).sum

def PatternPart.weight (escape : Char) : PatternPart → Nat
  | .anyText | .anyChar => 0
  | .char c => charWeight escape c

def partsWeight (escape : Char) (parts : List PatternPart) : Nat := (parts.map (PatternPart.weight escape)).sum

def lightest : List PatternPart → List Char
  | [] => []
  | .anyText :: parts => lightest parts
  | .anyChar :: parts => ' ' :: lightest parts
  | .char c :: parts => c :: lightest parts

section
variable {escape : Char} {same : Char → Char → Bool}

theorem charWeight_toLower (x : Char) : charWeight escape x.toLower = charWeight escape x := by
  simp only [charWeight, Char.toLower_toLower_eq_toLower, isWildcard_toLower]

theorem charWeight_eq_of_sameLetter {c x : Char} (h : sameLetter c x = true) :
    charWeight escape c = charWeight escape x := by
  rw [← charWeight_toLower c, beq_iff_eq.mp h, charWeight_toLower]

theorem textWeight_toLower (s : List Char) : textWeight escape (s.map Char.toLower) = textWeight escape s := by
  simp only [textWeight, List.map_map, Function.comp_def, charWeight_toLower]

theorem textWeight_le_of_suffix {rest s : List Char} (h : rest <:+ s) : textWeight escape rest ≤ textWeight escape s := by
  obtain ⟨skipped, rfl⟩ := h
  simp [textWeight]

theorem partsWeight_le_of_matches (hsame : ∀ c x, same c x = true → charWeight escape c = charWeight escape x) :
    ∀ {parts : List PatternPart} {s : List Char}, matchesParts same parts s = true →
      partsWeight escape parts ≤ textWeight escape s
  | [], s, _ => Nat.zero_le _
  | .anyText :: parts, s, h => by
    obtain ⟨rest, hrest, h⟩ := List.any_eq_true.mp h
    have hle := partsWeight_le_of_matches hsame h
    have hsuffix : textWeight escape rest ≤ textWeight escape s :=
      textWeight_le_of_suffix ((List.mem_tails rest s).mp hrest)
    have hweight : partsWeight escape (.anyText :: parts) = partsWeight escape parts := by
      simp [partsWeight, PatternPart.weight]
    omega
  | .anyChar :: parts, x :: s, h => by
    have hle : partsWeight escape parts ≤ textWeight escape s := partsWeight_le_of_matches hsame h
    simp only [partsWeight, textWeight, List.map_cons, List.sum_cons, PatternPart.weight] at hle ⊢
    omega
  | .char c :: parts, x :: s, h => by
    obtain ⟨hx, h⟩ := (Bool.and_eq_true _ _).mp h
    have hle := partsWeight_le_of_matches hsame h
    have hchar := hsame c x hx
    simp only [partsWeight, textWeight, List.map_cons, List.sum_cons, PatternPart.weight] at hle ⊢
    omega

theorem matchesParts_lightest (hsame : ∀ c, same c c = true) :
    ∀ parts : List PatternPart, matchesParts same parts (lightest parts) = true
  | [] => rfl
  | .anyText :: parts => by
    refine List.any_eq_true.mpr ⟨lightest parts, ?_, matchesParts_lightest hsame parts⟩
    exact (List.mem_tails _ _).mpr List.suffix_rfl
  | .anyChar :: parts => matchesParts_lightest hsame parts
  | .char c :: parts => (Bool.and_eq_true _ _).mpr ⟨hsame c, matchesParts_lightest hsame parts⟩

end

/-! ## The weight of a pattern -/

/-- What a character of a pattern adds to the weight of its parts: a letter that is not the escape character stands for
itself, and the escape character gives its weight to the one behind it. -/
def share (escape x : Char) : Nat :=
  if x = escape then 1 else if x.toLower = escape.toLower then 2 else 0

def patternShare (escape : Char) (cs : List Char) : Nat := (cs.map (share escape)).sum

section
variable {escape : Char}

theorem weight_escaped_le (x : Char) : charWeight escape x ≤ share escape escape + share escape x := by
  by_cases hx : x = escape
  · simp [charWeight, share, hx]
  · by_cases hsame : x.toLower = escape.toLower
    · simp [charWeight, share, hx, hsame]
    · simp only [charWeight, share, hsame, if_false]
      split <;> simp

theorem share_eq_one_iff (x : Char) : share escape x = 1 ↔ x = escape := by
  rw [share]
  split
  · simp [*]
  · split <;> simp [*]

theorem share_toLower_le (hlower : escape.toLower = escape) (x : Char) : share escape x.toLower ≤ share escape x := by
  simp only [share, hlower, Char.toLower_toLower_eq_toLower]
  by_cases hx : x.toLower = escape
  · rw [if_pos hx]
    split <;> simp
  · simp [hx]

theorem share_le_toLower (hupper : escape.toLower ≠ escape) (x : Char) : share escape x ≤ share escape x.toLower := by
  have hx : x.toLower ≠ escape := by
    rintro rfl
    exact hupper (Char.toLower_toLower_eq_toLower x)
  simp only [share, Char.toLower_toLower_eq_toLower, hx, if_false]
  split
  · simp [*]
  · exact Nat.le_refl _

end

section
variable {escape : Char} (hescape : escape.isAlpha = true)
include hescape

theorem toLower_ne_of_not_isAlpha {x : Char} (hx : x.isAlpha = false) : x.toLower ≠ escape.toLower := by
  intro h
  obtain rfl := eq_of_toLower_eq hx h
  rw [hx] at hescape
  cases hescape

theorem toLower_ne_of_isWildcard {x : Char} (hx : isWildcard x = true) : x.toLower ≠ escape.toLower := by
  refine toLower_ne_of_not_isAlpha hescape ?_
  simp only [isWildcard, Bool.or_eq_true, beq_iff_eq] at hx
  obtain rfl | rfl := hx <;> rfl

theorem textWeight_lightest : ∀ parts : List PatternPart, textWeight escape (lightest parts) = partsWeight escape parts
  | [] => rfl
  | .anyText :: parts => by
    have ih := textWeight_lightest parts
    simpa [lightest, partsWeight, PatternPart.weight] using ih
  | .anyChar :: parts => by
    have ih := textWeight_lightest parts
    have hblank : charWeight escape ' ' = 0 := by
      rw [charWeight, if_neg (toLower_ne_of_not_isAlpha hescape rfl)]
      rfl
    simpa [lightest, partsWeight, textWeight, PatternPart.weight, hblank] using ih
  | .char c :: parts => by
    have ih := textWeight_lightest parts
    simpa [lightest, partsWeight, textWeight, PatternPart.weight] using ih

theorem weight_ofChar {x : Char} (hx : x ≠ escape) : (PatternPart.ofChar x).weight escape = share escape x := by
  rw [share, if_neg hx, PatternPart.ofChar]
  split
  · rename_i hpercent
    rw [if_neg (hpercent ▸ toLower_ne_of_not_isAlpha hescape rfl)]
    rfl
  · split
    · rename_i hunderscore
      rw [if_neg (hunderscore ▸ toLower_ne_of_not_isAlpha hescape rfl)]
      rfl
    · have hplain : isWildcard x = false := by simp [isWildcard, *]
      simp only [PatternPart.weight, charWeight, hplain, Bool.false_eq_true, if_false]

theorem weight_escaped {x : Char} (hx : (isWildcard x || x == escape) = true) :
    charWeight escape x = share escape escape + share escape x := by
  rw [Bool.or_eq_true, beq_iff_eq] at hx
  obtain hx | rfl := hx
  · have hne := toLower_ne_of_isWildcard hescape hx
    have hne' : x ≠ escape := fun h => hne (h ▸ rfl)
    simp [charWeight, share, hne, hne', hx]
  · simp [charWeight, share]

/-- The parts of a pattern weigh no more than its characters add, and as much where the reading is not lenient. -/
theorem weight_readPattern {lenient : Bool} : ∀ {cs : List Char} {parts : List PatternPart},
    readPattern lenient (some escape) cs = some parts →
      partsWeight escape parts ≤ patternShare escape cs ∧
        (lenient = false → partsWeight escape parts = patternShare escape cs)
  | [], parts, h => by
    cases h
    exact ⟨Nat.le_refl _, fun _ => rfl⟩
  | [c], parts, h => by
    rw [readPattern] at h
    split at h
    · cases h
    · rename_i hc
      cases h
      have hweight := weight_ofChar hescape (x := c) (fun hsame => hc (hsame ▸ rfl))
      simp [partsWeight, patternShare, hweight]
  | c :: x :: cs, parts, h => by
    rw [readPattern] at h
    split at h
    · rename_i hc
      obtain rfl : escape = c := Option.some.inj hc
      split at h
      · rename_i hx
        obtain ⟨rest, hrest, rfl⟩ := Option.map_eq_some_iff.mp h
        have ⟨hle, heq⟩ := weight_readPattern hrest
        simp only [partsWeight, patternShare, List.map_cons, List.sum_cons, PatternPart.weight] at hle heq ⊢
        refine ⟨?_, fun hstrict => ?_⟩
        · have hfirst : charWeight escape x ≤ share escape escape + share escape x := weight_escaped_le x
          omega
        · have hfirst := weight_escaped hescape (x := x) (by simpa [hstrict] using hx)
          have hrest := heq hstrict
          omega
      · cases h
    · rename_i hc
      obtain ⟨rest, hrest, rfl⟩ := Option.map_eq_some_iff.mp h
      have ⟨hle, heq⟩ := weight_readPattern hrest
      have hfirst := weight_ofChar hescape (x := c) (fun hsame => hc (hsame ▸ rfl))
      simp only [partsWeight, patternShare, List.map_cons, List.sum_cons] at hle heq ⊢
      refine ⟨?_, fun hstrict => ?_⟩
      · omega
      · have hrest := heq hstrict
        omega

end

/-! ## No other way -/

theorem readPattern_lenient {escape : Option Char} (lenient : Bool) : ∀ {cs : List Char} {parts : List PatternPart},
    readPattern false escape cs = some parts → readPattern lenient escape cs = some parts
  | [], _, h | [_], _, h => h
  | c :: x :: cs, parts, h => by
    simp only [readPattern] at h ⊢
    split at h
    · rename_i hc
      rw [if_pos hc]
      split at h
      · rename_i hx
        obtain ⟨rest, hrest, rfl⟩ := Option.map_eq_some_iff.mp h
        have hx' : (lenient || isWildcard x || x == c) = true := by
          rw [Bool.false_or] at hx
          rw [Bool.or_assoc, hx, Bool.or_true]
        rw [if_pos hx', readPattern_lenient lenient hrest]
        rfl
      · cases h
    · rename_i hc
      obtain ⟨rest, hrest, rfl⟩ := Option.map_eq_some_iff.mp h
      rw [if_neg hc, readPattern_lenient lenient hrest]
      rfl

theorem readPattern_of_not_mem (lenient : Bool) {escape : Char} : ∀ {cs : List Char}, escape ∉ cs →
    readPattern lenient (some escape) cs = some (cs.map .ofChar)
  | [], _ => rfl
  | [c], h => by
    have hc : escape ≠ c := by simpa using h
    simp [readPattern, hc]
  | c :: x :: cs, h => by
    obtain ⟨hc, h⟩ := not_or.mp (List.mem_cons.not.mp h)
    rw [readPattern, if_neg (by simpa using hc), readPattern_of_not_mem lenient h]
    rfl

/-- The parts of a pattern in lower case are in lower case. -/
theorem lower_readPattern {lenient : Bool} {escape : Option Char} : ∀ {cs : List Char} {parts : List PatternPart},
    (∀ x ∈ cs, x.toLower = x) → readPattern lenient escape cs = some parts → parts.map .lower = parts
  | [], _, _, h => by
    cases h
    rfl
  | [c], _, hlower, h => by
    have hc := hlower c List.mem_cons_self
    rw [readPattern] at h
    split at h
    · cases h
    · cases h
      simp [← PatternPart.ofChar_toLower, hc]
  | c :: x :: cs, _, hlower, h => by
    obtain ⟨hc, hlower⟩ := List.forall_mem_cons.mp hlower
    rw [readPattern] at h
    split at h
    · split at h
      · obtain ⟨rest, hrest, rfl⟩ := Option.map_eq_some_iff.mp h
        obtain ⟨hx, hlower⟩ := List.forall_mem_cons.mp hlower
        simp [PatternPart.lower, hx, lower_readPattern hlower hrest]
      · cases h
    · obtain ⟨rest, hrest, rfl⟩ := Option.map_eq_some_iff.mp h
      simp [← PatternPart.ofChar_toLower, hc, lower_readPattern hlower hrest]

theorem eq_of_sum_map_le {α : Type} {l : List α} {f g : α → Nat} (hle : ∀ x ∈ l, f x ≤ g x)
    (hsum : (l.map g).sum ≤ (l.map f).sum) : ∀ x ∈ l, f x = g x := by
  intro x hx
  by_contra hne
  have hlt : (l.map f).sum < (l.map g).sum :=
    List.sum_lt_sum f g hle ⟨x, hx, Nat.lt_of_le_of_ne (hle x hx) hne⟩
  exact absurd hsum (Nat.not_le_of_lt hlt)

theorem matchesPattern_iff {lenient : Bool} {same : Char → Char → Bool} {escape : Option Char} {pattern text : String} :
    matchesPattern lenient same escape pattern text = true ↔
      ∃ parts, readPattern lenient escape pattern.toList = some parts ∧ matchesParts same parts text.toList = true := by
  rw [matchesPattern]
  split <;> simp [*]

/-- Where a pattern and its lower case match the same texts, their parts weigh the same: each of the two matches the
lightest text of the other. -/
theorem weight_eq_of_lowered {lenient : Bool} {escape : Char} (hescape : escape.isAlpha = true) {pattern : String}
    {parts : List PatternPart} (hparts : readPattern lenient (some escape) pattern.toList = some parts)
    (h : ∀ text, matchesLowered lenient (some escape) pattern text =
      matchesPattern lenient sameLetter (some escape) pattern text) :
    ∃ lowered, readPattern lenient (some escape) (pattern.toList.map Char.toLower) = some lowered ∧
      partsWeight escape lowered = partsWeight escape parts := by
  have hnative : matchesPattern lenient sameLetter (some escape) pattern (String.ofList (lightest parts)) = true :=
    matchesPattern_iff.mpr ⟨parts, hparts, by simpa using matchesParts_lightest (by simp [sameLetter]) parts⟩
  obtain ⟨lowered, hlowered, hmatches⟩ := matchesPattern_iff.mp ((h _).trans hnative)
  rw [toList_foldCase] at hlowered
  rw [toList_foldCase, String.toList_ofList] at hmatches
  refine ⟨lowered, hlowered, Nat.le_antisymm ?_ ?_⟩
  · calc partsWeight escape lowered
        ≤ textWeight escape ((lightest parts).map Char.toLower) := partsWeight_le_of_matches (by simp) hmatches
      _ = textWeight escape (lightest parts) := textWeight_toLower _
      _ = partsWeight escape parts := textWeight_lightest hescape parts
  · have hfixed : lowered.map .lower = lowered := lower_readPattern (by simp) hlowered
    have hemulated : matchesLowered lenient (some escape) pattern (String.ofList (lightest lowered)) = true := by
      refine matchesPattern_iff.mpr ⟨lowered, (toList_foldCase pattern).symm ▸ hlowered, ?_⟩
      rw [toList_foldCase, String.toList_ofList, ← hfixed, matchesParts_toLower, hfixed]
      exact matchesParts_lightest (by simp [sameLetter]) lowered
    obtain ⟨parts', hparts', hmatches'⟩ := matchesPattern_iff.mp ((h _).symm.trans hemulated)
    obtain rfl : parts = parts' := Option.some.inj (hparts.symm.trans hparts')
    rw [String.toList_ofList] at hmatches'
    calc partsWeight escape parts
        ≤ textWeight escape (lightest lowered) := partsWeight_le_of_matches (fun _ _ => charWeight_eq_of_sameLetter) hmatches'
      _ = partsWeight escape lowered := textWeight_lightest hescape lowered

theorem escapesKept_of_lowered {lenient : Bool} {escape : Option Char} {pattern : String}
    (hformed : (readPattern false escape pattern.toList).isSome = true)
    (h : ∀ text, matchesLowered lenient escape pattern text = matchesPattern lenient sameLetter escape pattern text) :
    EscapesKept escape pattern := by
  cases escape with
  | none => exact escapesKept_of_not_isAlpha (by simp) pattern
  | some c =>
    cases hc : c.isAlpha with
    | false => exact escapesKept_of_not_isAlpha (by simp [hc]) pattern
    | true =>
      obtain ⟨parts, hparts⟩ := Option.isSome_iff_exists.mp hformed
      obtain ⟨lowered, hlowered, hsame⟩ := weight_eq_of_lowered hc (readPattern_lenient lenient hparts) h
      have hweight : partsWeight c parts = patternShare c pattern.toList := (weight_readPattern hc hparts).2 rfl
      have hlower : patternShare c (pattern.toList.map Char.toLower) =
          (pattern.toList.map fun x => share c x.toLower).sum := by
        rw [patternShare, List.map_map]
        rfl
      have hshares : ∀ x ∈ pattern.toList, share c x.toLower = share c x := by
        by_cases hcase : c.toLower = c
        · have hle := (weight_readPattern hc hlowered).1
          refine eq_of_sum_map_le (fun x _ => share_toLower_le hcase x) ?_
          rwa [← hlower, ← patternShare, ← hweight, ← hsame]
        · -- in lower case the pattern has no escape character
          have hnone : c ∉ pattern.toList.map Char.toLower := by
            intro hmem
            obtain ⟨x, -, rfl⟩ := List.mem_map.mp hmem
            exact hcase (Char.toLower_toLower_eq_toLower x)
          obtain rfl : _ = lowered := Option.some.inj ((readPattern_of_not_mem lenient hnone).symm.trans hlowered)
          have heq := (weight_readPattern hc (readPattern_of_not_mem false hnone)).2 rfl
          refine fun x hx => (eq_of_sum_map_le (fun x _ => share_le_toLower hcase x) ?_ x hx).symm
          rw [← hlower, ← patternShare, ← hweight, ← hsame, heq]
      intro x hx
      have hone : share c x = 1 ↔ x = c := share_eq_one_iff x
      have hone' : share c x.toLower = 1 ↔ x.toLower = c := share_eq_one_iff x.toLower
      rw [hshares x hx] at hone'
      rw [Option.some.injEq, Option.some.injEq, eq_comm, ← hone', hone, eq_comm]

end SqlMapping
