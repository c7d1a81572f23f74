import SqlMapping.Json.Read

/-!
# Reading written JSON

A tree is legible if its strings and keys denote texts and its numerals are numerals. `read_write`: what is read of the
text of a legible tree is the tree. A value is read with anything behind it that cannot lengthen a numeral, so that the
induction over trees goes through the items of arrays and the fields of objects.
-/

namespace SqlMapping.Json

/-! ## Strings -/

theorem digitValue?_digit : ∀ n < 16, Hex.digitValue? (Hex.digit n) = some n := by decide

theorem hexNumber_control {n : Nat} (h : n < 32) :
    hexNumber ['0', '0', Hex.digit (n / 16), Hex.digit (n % 16)] = some n := by
  have hzero : Hex.digitValue? '0' = some 0 := by decide
  have hhigh := digitValue?_digit (n / 16) (by omega)
  have hlow := digitValue?_digit (n % 16) (by omega)
  simp only [hexNumber, List.mapM_cons, List.mapM_nil, hzero, hhigh, hlow, Option.pure_def, Option.bind_eq_bind,
    Option.bind_some, Option.map_some, List.foldl_cons, List.foldl_nil, Option.some.injEq]
  omega

theorem unitOfCode_toNat {c : Char} (h : c.toNat < 32) : unitOfCode c.toNat = .char c := by
  unfold unitOfCode
  rw [if_neg (by omega), Char.ofNat_toNat]

theorem readUnits_cons {c : Char} (hquote : c ≠ '\x22') (hslash : c ≠ '\\') (hcontrol : ¬ c.toNat < 32)
    (cs : List Char) : readUnits (c :: cs) = (readUnits cs).map fun p => (.char c :: p.1, p.2) := by
  rw [readUnits.eq_def]
  split <;> rename_i heq
  · cases heq
  · exact absurd (List.cons.inj heq).1 hquote
  · exact absurd (List.cons.inj heq).1 hslash
  · exact absurd (List.cons.inj heq).1 hslash
  · cases heq
    rw [if_neg hcontrol]
    cases readUnits cs <;> rfl

theorem readUnits_writeChar (c : Char) (cs : List Char) :
    readUnits (writeChar c ++ cs) = (readUnits cs).map fun p => (.char c :: p.1, p.2) := by
  unfold writeChar
  split
  iterate 7 · cases h : readUnits cs <;> simp [readUnits, escaped?, h]
  · rename_i hquote hslash _ _ _ _ _
    split
    · rename_i hcontrol
      cases h : readUnits cs <;>
        simp [readUnits, hexNumber_control hcontrol, unitOfCode_toNat hcontrol, h]
    · rename_i hcontrol
      exact readUnits_cons hquote hslash hcontrol cs

theorem readUnits_writeString (cs rest : List Char) :
    readUnits (cs.flatMap writeChar ++ '\x22' :: rest) = some (cs.map .char, rest) := by
  induction cs with
  | nil => simp [readUnits]
  | cons c cs ih =>
    rw [List.flatMap_cons, List.append_assoc, readUnits_writeChar, ih]
    rfl

theorem joinUnits_chars (cs : List Char) : joinUnits (cs.map .char) = some cs := by
  induction cs with
  | nil => rfl
  | cons c cs ih => simp [joinUnits, ih]

theorem readString_writeString (s : String) (rest : List Char) :
    readString (s.toList.flatMap writeChar ++ '\x22' :: rest) = some (some s, rest) := by
  simp [readString, readUnits_writeString, joinUnits_chars]

/-! ## Numerals -/

def takeUnsigned (sign cs : List Char) : Option (List Char × List Char) := do
  let (whole, cs) ← takeWhole cs
  let (fraction, cs) ← takeFraction cs
  let (exponent, cs) ← takeExponent cs
  some (sign ++ whole ++ fraction ++ exponent, cs)

theorem takeNumeral_minus (cs : List Char) : takeNumeral ('-' :: cs) = takeUnsigned ['-'] cs := rfl

theorem takeNumeral_of_ne {cs : List Char} (h : cs.head? ≠ some '-') : takeNumeral cs = takeUnsigned [] cs := by
  cases cs with
  | nil => rfl
  | cons c cs =>
    have hc : c ≠ '-' := by simpa using h
    simp [takeNumeral, takeUnsigned, hc]

def isNumeralChar (c : Char) : Bool := c.isDigit || ['.', 'e', 'E', '+', '-'].contains c

/-- What follows does not lengthen a numeral. -/
def EndsNumeral (rest : List Char) : Prop := ∀ c ∈ rest.head?, isNumeralChar c = false

theorem endsNumeral_nil : EndsNumeral [] := by
  intro c h
  cases h

theorem endsNumeral_cons {c : Char} (hc : isNumeralChar c = false) (cs : List Char) : EndsNumeral (c :: cs) := by
  intro c' h
  cases h
  exact hc

theorem EndsNumeral.eq_nil_or_cons {rest : List Char} (h : EndsNumeral rest) :
    rest = [] ∨ ∃ c cs, rest = c :: cs ∧ c.isDigit = false ∧ c ≠ '.' ∧ c ≠ 'e' ∧ c ≠ 'E' ∧ c ≠ '+' ∧ c ≠ '-' := by
  cases rest with
  | nil => exact .inl rfl
  | cons c cs =>
    have hc := h c rfl
    simp only [isNumeralChar, Bool.or_eq_false_iff, List.contains_eq_mem, decide_eq_false_iff_not, List.mem_cons,
      List.not_mem_nil, or_false, not_or] at hc
    exact .inr ⟨c, cs, rfl, hc⟩

section
variable {rest : List Char} (hrest : EndsNumeral rest)
include hrest

theorem takeRun_append (cs : List Char) :
    takeRun (cs ++ rest) = (takeRun cs).map (Prod.map id (· ++ rest)) := by
  have hstops : ∀ cs : List Char, (cs ++ rest).takeWhile Char.isDigit = cs.takeWhile Char.isDigit ∧
      (cs ++ rest).dropWhile Char.isDigit = cs.dropWhile Char.isDigit ++ rest := by
    intro cs
    induction cs with
    | nil =>
      rcases hrest.eq_nil_or_cons with rfl | ⟨c, cs, rfl, hc, _⟩
      · simp
      · simp [hc]
    | cons c cs ih =>
      by_cases hc : c.isDigit = true
      · simp [hc, ih]
      · simp [hc]
  unfold takeRun
  rw [(hstops cs).1, (hstops cs).2]
  by_cases hnone : (cs.takeWhile Char.isDigit).isEmpty = true
  · simp [hnone]
  · simp [hnone]

theorem takeWhole_append (cs : List Char) :
    takeWhole (cs ++ rest) = (takeWhole cs).map (Prod.map id (· ++ rest)) := by
  unfold takeWhole
  rw [takeRun_append hrest]
  cases takeRun cs with
  | none => rfl
  | some p =>
    by_cases hzeros : 1 < p.1.length ∧ p.1.head? = some '0'
    · simp [hzeros]
    · simp [hzeros]

theorem takeFraction_append (cs : List Char) :
    takeFraction (cs ++ rest) = (takeFraction cs).map (Prod.map id (· ++ rest)) := by
  cases cs with
  | nil =>
    rcases hrest.eq_nil_or_cons with rfl | ⟨c, cs, rfl, _, hpoint, _⟩
    · simp [takeFraction]
    · simp [takeFraction, hpoint]
  | cons c cs =>
    by_cases hpoint : c = '.'
    · simp [takeFraction, hpoint, takeRun_append hrest, Function.comp_def]
    · simp [takeFraction, hpoint]

theorem takeExponent_append (cs : List Char) :
    takeExponent (cs ++ rest) = (takeExponent cs).map (Prod.map id (· ++ rest)) := by
  have hrun := takeRun_append hrest
  rcases cs with _ | ⟨e, _ | ⟨s, cs⟩⟩
  · rcases hrest.eq_nil_or_cons with rfl | ⟨c, cs, rfl, _, _, he, hE, _⟩
    · simp [takeExponent]
    · simp [takeExponent, he, hE]
  · by_cases hmark : e = 'e' ∨ e = 'E'
    · rcases hrest.eq_nil_or_cons with rfl | ⟨c, cs, rfl, hc, _, _, _, hplus, hminus⟩
      · simp [takeExponent, hmark]
      · simp [takeExponent, hmark, hplus, hminus, takeRun, hc]
    · simp [takeExponent, hmark]
  · by_cases hmark : e = 'e' ∨ e = 'E'
    · by_cases hsign : s = '+' ∨ s = '-'
      · simp [takeExponent, hmark, hsign, hrun, Function.comp_def]
      · have hdigits := hrun (s :: cs)
        rw [List.cons_append] at hdigits
        simp [takeExponent, hmark, hsign, hdigits, Function.comp_def]
    · simp [takeExponent, hmark]

theorem takeUnsigned_append (sign cs : List Char) :
    takeUnsigned sign (cs ++ rest) = (takeUnsigned sign cs).map (Prod.map id (· ++ rest)) := by
  unfold takeUnsigned
  rw [takeWhole_append hrest]
  cases takeWhole cs with
  | none => rfl
  | some whole =>
    simp only [Option.map_some, Option.bind_eq_bind, Option.bind_some, Prod.map]
    rw [takeFraction_append hrest]
    cases takeFraction whole.2 with
    | none => rfl
    | some fraction =>
      simp only [Option.map_some, Option.bind_some, Prod.map]
      rw [takeExponent_append hrest]
      cases takeExponent fraction.2 <;> rfl

theorem takeNumeral_append (cs : List Char) :
    takeNumeral (cs ++ rest) = (takeNumeral cs).map (Prod.map id (· ++ rest)) := by
  cases cs with
  | nil =>
    have hhead : ([] ++ rest).head? ≠ some '-' := by
      rcases hrest.eq_nil_or_cons with rfl | ⟨c, cs, rfl, _, _, _, _, _, hminus⟩
      · simp
      · simpa using hminus
    rw [takeNumeral_of_ne hhead, takeUnsigned_append hrest]
    rfl
  | cons c cs =>
    by_cases hminus : c = '-'
    · rw [hminus, List.cons_append, takeNumeral_minus, takeNumeral_minus, takeUnsigned_append hrest]
    · rw [takeNumeral_of_ne (by simpa using hminus), takeNumeral_of_ne (by simpa using hminus),
        takeUnsigned_append hrest]

end

def IsNumeral (s : String) : Prop := takeNumeral s.toList = some (s.toList, [])

theorem IsNumeral.takeNumeral_append {s : String} (h : IsNumeral s) {rest : List Char} (hrest : EndsNumeral rest) :
    takeNumeral (s.toList ++ rest) = some (s.toList, rest) := by
  rw [Json.takeNumeral_append hrest, h]
  rfl

/-! ## Legible trees -/

mutual

def Legible : Json → Prop
  | .null | .bool _ => True
  | .number numeral => IsNumeral numeral
  | .string text => text.isSome = true
  | .array items => LegibleItems items
  | .object fields => LegibleFields fields

def LegibleItems : List Json → Prop
  | [] => True
  | j :: js => j.Legible ∧ LegibleItems js

def LegibleFields : List (Option String × Json) → Prop
  | [] => True
  | (key, j) :: fields => key.isSome = true ∧ j.Legible ∧ LegibleFields fields

end

/-! ## Values -/

theorem skipSpace_cons {c : Char} (h : isSpace c = false) (cs : List Char) : skipSpace (c :: cs) = c :: cs := by
  simp [skipSpace, h]

def opensNumeral (c : Char) : Bool := c == '-' || c.isDigit

theorem opensNumeral_of_takeNumeral {cs : List Char} {p : List Char × List Char} (h : takeNumeral cs = some p) :
    ∃ c cs', cs = c :: cs' ∧ opensNumeral c = true := by
  cases cs with
  | nil => cases h
  | cons c cs =>
    refine ⟨c, cs, rfl, ?_⟩
    by_cases hminus : c = '-'
    · simp [opensNumeral, hminus]
    · rw [takeNumeral_of_ne (by simpa using hminus)] at h
      by_cases hdigit : c.isDigit = true
      · simp [opensNumeral, hdigit]
      · simp [takeUnsigned, takeWhole, takeRun, hdigit] at h

/-- The characters that a value is told from a numeral by, and the closing bracket. -/
theorem marks_of_opensNumeral {c : Char} (hc : opensNumeral c = true) :
    isSpace c = false ∧ c ≠ 'n' ∧ c ≠ 't' ∧ c ≠ 'f' ∧ c ≠ '\x22' ∧ c ≠ '[' ∧ c ≠ '\x7b' ∧ c ≠ ']' := by
  have hne : ∀ d : Char, opensNumeral d = false → c ≠ d := by
    intro d hd heq
    rw [← heq, hc] at hd
    cases hd
  have hspace : isSpace c = false := by
    simp [isSpace, hne ' ' (by decide), hne '\n' (by decide), hne '\t' (by decide), hne '\r' (by decide)]
  exact ⟨hspace, hne 'n' (by decide), hne 't' (by decide), hne 'f' (by decide), hne '\x22' (by decide),
    hne '[' (by decide), hne '\x7b' (by decide), hne ']' (by decide)⟩

theorem readValue_numeral {cs : List Char} {p : List Char × List Char} (h : takeNumeral cs = some p) (depth : Nat) :
    readValue (depth + 1) cs = some (.number (String.ofList p.1), p.2) := by
  obtain ⟨c, cs, rfl, hc⟩ := opensNumeral_of_takeNumeral h
  obtain ⟨hspace, hother⟩ := marks_of_opensNumeral hc
  rw [readValue, skipSpace_cons hspace]
  simp [hother, h]

theorem readValue_array {depth : Nat} {c : Char} {cs rest : List Char} {items : List Json}
    (hspace : isSpace c = false) (hclose : c ≠ ']') (h : readItems depth (c :: cs) = some (items, rest)) :
    readValue (depth + 1) ('[' :: c :: cs) = some (.array items, rest) := by
  rw [readValue, skipSpace_cons (by decide)]
  simp [skipSpace_cons hspace, hclose, h]

theorem readValue_object {depth : Nat} {cs rest : List Char} {fields : List (Option String × Json)}
    (h : readFields depth ('\x22' :: cs) = some (fields, rest)) :
    readValue (depth + 1) ('\x7b' :: '\x22' :: cs) = some (.object fields, rest) := by
  have hquote : isSpace '\x22' = false := by decide
  rw [readValue, skipSpace_cons (by decide)]
  simp [skipSpace_cons hquote, h]

theorem exists_writeChars {j : Json} (h : j.Legible) :
    ∃ c cs, j.writeChars = c :: cs ∧ isSpace c = false ∧ c ≠ ']' := by
  cases j with
  | null => exact ⟨_, _, rfl, by decide⟩
  | bool b => cases b <;> exact ⟨_, _, rfl, by decide⟩
  | number numeral =>
    obtain ⟨c, cs, hcs, hc⟩ := opensNumeral_of_takeNumeral h
    obtain ⟨hspace, hother⟩ := marks_of_opensNumeral hc
    exact ⟨c, cs, hcs, hspace, hother.2.2.2.2.2.2⟩
  | string text => exact ⟨_, _, rfl, by decide⟩
  | array items => exact ⟨_, _, rfl, by decide⟩
  | object fields => exact ⟨_, _, rfl, by decide⟩

theorem writeItems_cons (j j' : Json) (js : List Json) :
    writeItems (j :: j' :: js) = j.writeChars ++ ',' :: writeItems (j' :: js) := by
  rw [writeItems]
  simp

theorem writeFields_cons (key : String) (j : Json) (f : Option String × Json) (fs : List (Option String × Json)) :
    writeFields ((some key, j) :: f :: fs) =
      writeString key ++ ':' :: (j.writeChars ++ ',' :: writeFields (f :: fs)) := by
  rw [writeFields]
  · rfl
  · simp

theorem exists_writeItems {j : Json} (h : j.Legible) (js : List Json) :
    ∃ c cs, writeItems (j :: js) = c :: cs ∧ isSpace c = false ∧ c ≠ ']' := by
  obtain ⟨c, cs, hcs, hc⟩ := exists_writeChars h
  cases js with
  | nil => exact ⟨c, cs, by rw [writeItems, hcs], hc⟩
  | cons j' js => exact ⟨c, _, by rw [writeItems_cons, hcs]; rfl, hc⟩

theorem exists_writeFields (f : Option String × Json) (fs : List (Option String × Json)) :
    ∃ cs, writeFields (f :: fs) = '\x22' :: cs := by
  cases fs with
  | nil => exact ⟨_, rfl⟩
  | cons f' fs =>
    rw [writeFields]
    · exact ⟨_, rfl⟩
    · simp

mutual

-- The depth goes down by two where an array or object is entered, and by one with each item. The text has a bracket or
-- a comma for each of these, so twice its length is depth enough.
theorem readValue_writeChars : ∀ {j : Json}, j.Legible → ∀ (depth : Nat) (rest : List Char),
    2 * j.writeChars.length ≤ depth → EndsNumeral rest → readValue depth (j.writeChars ++ rest) = some (j, rest)
  | j, h, 0, rest, hdepth, _ => by
    obtain ⟨c, cs, hcs, _⟩ := exists_writeChars h
    simp [hcs] at hdepth
  | .null, _, _ + 1, rest, _, _ => by
    simp [writeChars, readValue, skipSpace, isSpace]
  | .bool true, _, _ + 1, rest, _, _ => by
    simp [writeChars, readValue, skipSpace, isSpace]
  | .bool false, _, _ + 1, rest, _, _ => by
    simp [writeChars, readValue, skipSpace, isSpace]
  | .number numeral, h, depth + 1, rest, _, hrest => by
    rw [writeChars, readValue_numeral (h.takeNumeral_append hrest), String.ofList_toList]
  | .string (some text), _, _ + 1, rest, _, _ => by
    simp [writeChars, writeString, readValue, skipSpace, isSpace, readString_writeString]
  | .array [], _, depth + 1, rest, _, _ => by
    simp [writeChars, writeItems, readValue, skipSpace, isSpace]
  | .array (j :: js), h, depth + 1, rest, hdepth, _ => by
    have hlength : 2 * (writeItems (j :: js)).length + 1 ≤ depth := by
      simp only [writeChars, List.length_cons, List.length_append, List.length_nil] at hdepth
      omega
    have hitems := readItems_writeItems h depth rest hlength
    obtain ⟨c, cs, hcs, hspace, hclose⟩ := exists_writeItems h.1 js
    rw [hcs] at hitems
    rw [writeChars, List.cons_append, List.append_assoc, List.singleton_append, hcs]
    exact readValue_array hspace hclose hitems
  | .object [], _, depth + 1, rest, _, _ => by
    simp [writeChars, writeFields, readValue, skipSpace, isSpace]
  | .object (f :: fs), h, depth + 1, rest, hdepth, _ => by
    have hlength : 2 * (writeFields (f :: fs)).length + 1 ≤ depth := by
      simp only [writeChars, List.length_cons, List.length_append, List.length_nil] at hdepth
      omega
    have hfields := readFields_writeFields h depth rest hlength
    obtain ⟨cs, hcs⟩ := exists_writeFields f fs
    rw [hcs] at hfields
    rw [writeChars, List.cons_append, List.append_assoc, List.singleton_append, hcs]
    exact readValue_object hfields

theorem readItems_writeItems : ∀ {j : Json} {js : List Json}, LegibleItems (j :: js) →
    ∀ (depth : Nat) (rest : List Char), 2 * (writeItems (j :: js)).length + 1 ≤ depth →
      readItems depth (writeItems (j :: js) ++ ']' :: rest) = some (j :: js, rest)
  | j, [], h, depth + 1, rest, hdepth => by
    rw [writeItems] at hdepth ⊢
    have hitem := readValue_writeChars h.1 depth (']' :: rest) (by omega) (endsNumeral_cons (by decide) _)
    simp [readItems, hitem, skipSpace, isSpace]
  | j, j' :: js, h, depth + 1, rest, hdepth => by
    rw [writeItems_cons] at hdepth ⊢
    simp only [List.length_append, List.length_cons] at hdepth
    have hitem := readValue_writeChars h.1 depth (',' :: (writeItems (j' :: js) ++ ']' :: rest)) (by omega)
      (endsNumeral_cons (by decide) _)
    have hitems := readItems_writeItems h.2 depth rest (by omega)
    simp [readItems, hitem, skipSpace, isSpace, hitems]

theorem readFields_writeFields : ∀ {f : Option String × Json} {fs : List (Option String × Json)},
    LegibleFields (f :: fs) → ∀ (depth : Nat) (rest : List Char), 2 * (writeFields (f :: fs)).length + 1 ≤ depth →
      readFields depth (writeFields (f :: fs) ++ '\x7d' :: rest) = some (f :: fs, rest)
  | (some key, j), [], h, depth + 1, rest, hdepth => by
    rw [writeFields] at hdepth ⊢
    simp only [List.length_append, List.length_cons] at hdepth
    have hitem := readValue_writeChars h.2.1 depth ('\x7d' :: rest) (by omega) (endsNumeral_cons (by decide) _)
    simp [writeString, readFields, hitem, skipSpace, isSpace, readString_writeString]
  | (some key, j), f :: fs, h, depth + 1, rest, hdepth => by
    rw [writeFields_cons] at hdepth ⊢
    simp only [List.length_append, List.length_cons] at hdepth
    have hitem := readValue_writeChars h.2.1 depth (',' :: (writeFields (f :: fs) ++ '\x7d' :: rest)) (by omega)
      (endsNumeral_cons (by decide) _)
    have hfields := readFields_writeFields h.2.2 depth rest (by omega)
    simp [writeString, readFields, hitem, skipSpace, isSpace, readString_writeString, hfields]

end

/-- What is read of the text of a legible tree is the tree. -/
theorem read_write {j : Json} (h : j.Legible) : read j.write = some j := by
  have hread := readValue_writeChars h (2 * j.writeChars.length + 2) [] (by omega) endsNumeral_nil
  rw [List.append_nil] at hread
  rw [read, write, String.toList_ofList]
  simp only [hread, Option.bind_eq_bind, Option.bind_some]
  rfl

end SqlMapping.Json
