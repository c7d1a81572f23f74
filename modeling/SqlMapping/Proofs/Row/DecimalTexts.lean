import SqlMapping.Proofs.Row.Finite

/-!
# Texts that become decimals

Text is converted to a decimal if it is read as a number, and then its own text is kept. The words for what is not a
number or not finite are read as well. `text_becomes_decimal_iff`: the texts that are converted are the numerals and
these words, and it is the numerals of which the decimal denotes the number of the text.
-/

namespace SqlMapping

/-! ## Texts that are read -/

/-- A word that is read in the place of a number, in any case and with any sign. -/
def IsNumberWord (s : String) : Prop :=
  (skipSign s.toList).map Char.toLower ∈ [['n', 'a', 'n'], ['i', 'n', 'f'], ['i', 'n', 'f', 'i', 'n', 'i', 't', 'y']]

instance (s : String) : Decidable (IsNumberWord s) := inferInstanceAs (Decidable (_ ∈ _))

theorem readDigits_of_takeWhile {cs : List Char} (h : cs.takeWhile Char.isDigit ≠ []) :
    readDigits cs = some (cs.dropWhile Char.isDigit) := by
  cases cs with
  | nil => exact absurd rfl h
  | cons c cs =>
    have hdigit : c.isDigit = true := by
      by_contra hdigit
      exact h (List.takeWhile_cons_of_neg hdigit)
    exact if_pos (by simpa using hdigit)

theorem readDigits_of_readNat {cs : List Char} {n : ℕ} (h : readNat cs = some n) : readDigits cs = some [] := by
  obtain ⟨hne, hdigits, -⟩ := digits_of_readNat h
  have htake : cs.takeWhile Char.isDigit = cs := List.takeWhile_eq_self_iff.mpr hdigits
  rw [readDigits_of_takeWhile (by rwa [htake]), List.dropWhile_eq_nil_iff.mpr hdigits]

theorem skipExponent_of_readExponent {cs : List Char} {e : ℤ} (h : readExponent cs = some e) :
    skipExponent cs = [] := by
  cases cs with
  | nil => rfl
  | cons c cs =>
    rw [readExponent] at h
    obtain ⟨hmark, h⟩ := Option.ite_none_right_eq_some.mp h
    obtain ⟨_, h, -⟩ := Option.map_eq_some_iff.mp h
    obtain ⟨n, hn, -⟩ := Option.bind_eq_some_iff.mp h
    have hdigits : readDigits (takeSign cs).2 = some [] := readDigits_of_readNat hn
    rw [skipExponent, if_pos hmark, ← takeSign_snd, hdigits]
    rfl

theorem readDigits_of_takeWhile_eq_nil {cs : List Char} (h : cs.takeWhile Char.isDigit = []) :
    readDigits cs = none ∧ cs.dropWhile Char.isDigit = cs := by
  cases cs with
  | nil => exact ⟨rfl, rfl⟩
  | cons c cs =>
    have hdigit : ¬ c.isDigit = true := by
      intro hdigit
      rw [List.takeWhile_cons_of_pos hdigit] at h
      cases h
    exact ⟨if_neg (by simpa using hdigit), List.dropWhile_cons_of_neg hdigit⟩

theorem skipFraction_of_not_point {cs : List Char} (h : ∀ more, cs ≠ '.' :: more) : skipFraction cs = cs := by
  cases cs with
  | nil => rfl
  | cons c cs => exact if_neg fun hc => h cs (by rw [hc])

theorem readMantissa_of_readUnsignedDecimal {cs : List Char} {r : ℕ × ℤ} (h : readUnsignedDecimal cs = some r) :
    (readMantissa cs).map skipExponent = some [] := by
  unfold readUnsignedDecimal at h
  dsimp only at h
  by_cases hwhole : cs.takeWhile Char.isDigit = []
  · -- a point comes first, and digits follow
    obtain ⟨hnone, hdrop⟩ := readDigits_of_takeWhile_eq_nil hwhole
    rw [hwhole, hdrop] at h
    split at h
    · rename_i more
      obtain ⟨hfraction, h⟩ := Option.ite_none_left_eq_some.mp h
      obtain ⟨e, he, -⟩ := Option.map_eq_some_iff.mp h
      have hmore : more.takeWhile Char.isDigit ≠ [] := fun hnil => hfraction ⟨rfl, List.isEmpty_iff.mpr hnil⟩
      simp only [readMantissa, hnone, skip, if_true, Option.bind_some, readDigits_of_takeWhile hmore, Option.map_some,
        skipExponent_of_readExponent he]
    · simp at h
  · -- digits come first, and a fraction may follow
    simp only [readMantissa, readDigits_of_takeWhile hwhole, Option.map_some]
    split at h
    · rename_i more hpoint
      obtain ⟨-, h⟩ := Option.ite_none_left_eq_some.mp h
      obtain ⟨e, he, -⟩ := Option.map_eq_some_iff.mp h
      rw [hpoint, skipFraction, if_pos rfl, skipExponent_of_readExponent he]
    · rename_i hpoint
      obtain ⟨-, h⟩ := Option.ite_none_left_eq_some.mp h
      obtain ⟨e, he, -⟩ := Option.map_eq_some_iff.mp h
      rw [skipFraction_of_not_point hpoint, skipExponent_of_readExponent he]

theorem isNumeral_of_readDecimal {s : String} {negative : Bool} {d : ℕ} {e : ℤ}
    (h : readDecimal s = some (.number negative d e)) : IsNumeral s := by
  unfold readDecimal readDecimalChars at h
  dsimp only at h
  split at h
  · cases h
  split at h
  · cases h
  obtain ⟨r, hr, -⟩ := Option.map_eq_some_iff.mp h
  rw [takeSign_snd] at hr
  exact readMantissa_of_readUnsignedDecimal hr

theorem isNumeral_iff {s : String} : IsNumeral s ↔ ∃ q, (readDecimal s).bind DecimalValue.rational? = some q := by
  constructor
  · intro h
    obtain ⟨negative, d, e, hread⟩ := exists_readDecimal_of_isNumeral h
    exact ⟨_, by rw [hread]; rfl⟩
  · rintro ⟨q, hq⟩
    obtain ⟨_, _, _, hread, -⟩ := exists_of_rational? hq
    exact isNumeral_of_readDecimal hread

theorem rational?_of_isNumberWord {s : String} (h : IsNumberWord s) :
    ∃ x, readDecimal s = some x ∧ x.rational? = none := by
  rw [IsNumberWord, List.mem_cons, ← takeSign_snd] at h
  unfold readDecimal readDecimalChars
  dsimp only
  obtain hnan | hinfinite := h
  · exact ⟨.notANumber, if_pos hnan, rfl⟩
  · simp only [List.mem_cons, List.not_mem_nil, or_false] at hinfinite
    refine ⟨.infinite (takeSign s.toList).1, ?_, rfl⟩
    rw [if_neg ?_, if_pos hinfinite]
    intro hnan
    rw [hnan] at hinfinite
    revert hinfinite
    decide

theorem IsNumeral.not_isNumberWord {s : String} (h : IsNumeral s) : ¬ IsNumberWord s := by
  intro hword
  obtain ⟨x, hx, hnone⟩ := rational?_of_isNumberWord hword
  obtain ⟨q, hq⟩ := isNumeral_iff.mp h
  rw [hx, Option.bind_some, hnone] at hq
  cases hq

theorem isNumberWord_of_readDecimal {s : String} {x : DecimalValue} (h : readDecimal s = some x)
    (hx : x.rational? = none) : IsNumberWord s := by
  rw [IsNumberWord, List.mem_cons, List.mem_cons, List.mem_singleton, ← takeSign_snd]
  unfold readDecimal readDecimalChars at h
  dsimp only at h
  split at h
  · exact .inl (by assumption)
  split at h
  · exact .inr (by assumption)
  · obtain ⟨_, -, rfl⟩ := Option.map_eq_some_iff.mp h
    cases hx

/-- What is read is a numeral or one of the words. -/
theorem isSome_readDecimal_iff {s : String} : (readDecimal s).isSome = true ↔ IsNumeral s ∨ IsNumberWord s := by
  constructor
  · intro h
    obtain ⟨x, hx⟩ := Option.isSome_iff_exists.mp h
    cases hq : x.rational? with
    | some q => exact .inl (isNumeral_iff.mpr ⟨q, by rw [hx]; exact hq⟩)
    | none => exact .inr (isNumberWord_of_readDecimal hx hq)
  · rintro (h | h)
    · obtain ⟨_, _, _, hread⟩ := exists_readDecimal_of_isNumeral h
      rw [hread]
      rfl
    · obtain ⟨x, hx, -⟩ := rational?_of_isNumberWord h
      rw [hx]
      rfl

/-! ## Conversion -/

namespace Value

theorem rational?_display_ofInt {t : String} {n : ℤ} (h : readInt64 t = some n) :
    (decimal (int64 (Int64.ofInt n)).display).rational? = some (n : ℚ) := by
  obtain ⟨hmin, hmax⟩ := mem_int64_of_readInt64 h
  rw [display, toInt_ofInt_of_readInt64 h, rational?]
  exact rational?_of_readInt64 (readInt64_toString hmin hmax)

theorem isSome_toKind?_double (x : Double) : ((double x).toKind? .decimal).isSome = x.isFinite := by
  have hconvert : (double x).toKind? .decimal = if x.isFinite then some (.decimal (double x).display) else none := rfl
  rw [hconvert]
  cases x.isFinite <;> rfl

theorem isSome_toKind?_single (x : Single) : ((single x).toKind? .decimal).isSome = x.isFinite := by
  have hconvert : (single x).toKind? .decimal =
      if x.toDouble.isFinite then some (.decimal (single x).display) else none := rfl
  have hfinite : x.toDouble.isFinite = x.isFinite := by
    rw [Double.isFinite, Single.isFinite, ← FloatValue.isSome_rational?, ← FloatValue.isSome_rational?,
      x.rational?_toDouble]
  rw [hconvert, hfinite]
  cases x.isFinite <;> rfl

theorem toKind?_string_decimal (t : String) : (string t).toKind? .decimal =
    match readInt64 (trimBlanks t) with
    | some n => some (.decimal (int64 (Int64.ofInt n)).display)
    | none => (readDecimal (trimBlanks t)).map fun _ => .decimal (trimBlanks t) := by
  rw [toKind?_string_eq_readNumeric? rfl, readNumeric?]
  cases readInt64 (trimBlanks t) with
  | some n => rfl
  | none => simp [Double.read, Function.comp_def]

end Value

/-- The texts that become decimals are the numerals between blanks, and the words for what is no finite number. Of the
numerals, and not of the words, the text and the decimal denote one and the same number. No float becomes a decimal
that is not finite. -/
theorem text_becomes_decimal_iff (t : String) :
    (((MemberType.primitive .decimal).convert? (.string t)).isSome = true ↔
        IsNumeral (trimBlanks t) ∨ IsNumberWord (trimBlanks t)) ∧
      (∀ w, (MemberType.primitive .decimal).convert? (.string t) = some w →
        w.kind = .decimal ∧
          ((∃ q, w.rational? = some q ∧ (Value.string t).rational? = some q) ↔ ¬ IsNumberWord (trimBlanks t))) ∧
      (∀ x : Double, ((MemberType.primitive .decimal).convert? (.double x)).isSome = x.isFinite) ∧
      ∀ x : Single, ((MemberType.primitive .decimal).convert? (.single x)).isSome = x.isFinite := by
  have hnull : Value.string t ≠ .null := by simp
  rw [MemberType.convert?_primitive hnull, Value.toKind?_string_decimal]
  refine ⟨?_, ?_, ?_, ?_⟩
  · split
    · rename_i n hread
      exact iff_of_true rfl (.inl (isNumeral_iff.mpr ⟨n, rational?_of_readInt64 hread⟩))
    · rw [Option.isSome_map, isSome_readDecimal_iff]
  · intro w hw
    split at hw
    · -- the text of an integer that fits is written anew
      rename_i n hread
      cases hw
      have hnumeral : IsNumeral (trimBlanks t) := isNumeral_iff.mpr ⟨n, rational?_of_readInt64 hread⟩
      have htext : (Value.string t).rational? = some (n : ℚ) := by
        rw [Value.rational?_of_numeral? rfl, rational?_of_readInt64 hread]
      exact ⟨rfl, iff_of_true ⟨n, Value.rational?_display_ofInt hread, htext⟩ hnumeral.not_isNumberWord⟩
    · obtain ⟨x, hx, rfl⟩ := Option.map_eq_some_iff.mp hw
      rw [Value.rational?_of_numeral? rfl, Value.rational?_of_numeral? rfl]
      refine ⟨rfl, ?_⟩
      constructor
      · rintro ⟨q, hq, -⟩
        exact (isNumeral_iff.mpr ⟨q, hq⟩).not_isNumberWord
      · intro hword
        have hread : (readDecimal (trimBlanks t)).isSome = true := by rw [hx]; rfl
        obtain ⟨q, hq⟩ := isNumeral_iff.mp ((isSome_readDecimal_iff.mp hread).resolve_right hword)
        exact ⟨q, hq, hq⟩
  · intro x
    rw [MemberType.convert?_primitive (by simp)]
    exact Value.isSome_toKind?_double x
  · intro x
    rw [MemberType.convert?_primitive (by simp)]
    exact Value.isSome_toKind?_single x

/-- Blanks, a sign and leading zeros go where a 64-bit integer is written, and other numerals stay as they are. -/
theorem padded_number_becomes_decimal :
    (MemberType.primitive .decimal).convert? (.string " +007 ") = some (.decimal "7") ∧
      (MemberType.primitive .decimal).convert? (.string " 1.50e400\n") = some (.decimal "1.50e400") ∧
      ¬ IsNumberWord "+007" ∧ ¬ IsNumberWord "1.50e400" ∧
      (∃ q, (Value.decimal "7").rational? = some q ∧ (Value.string " +007 ").rational? = some q) ∧
      ∃ q, (Value.decimal "1.50e400").rational? = some q ∧ (Value.string " 1.50e400\n").rational? = some q := by
  have hint : (MemberType.primitive .decimal).convert? (.string " +007 ") = some (.decimal "7") := by decide
  have hbig : (MemberType.primitive .decimal).convert? (.string " 1.50e400\n") = some (.decimal "1.50e400") := by
    decide
  have hword : ¬ IsNumberWord (trimBlanks " +007 ") := by decide
  have hword' : ¬ IsNumberWord (trimBlanks " 1.50e400\n") := by decide
  exact ⟨hint, hbig, by decide, by decide, ((text_becomes_decimal_iff " +007 ").2.1 _ hint).2.mpr hword,
    ((text_becomes_decimal_iff " 1.50e400\n").2.1 _ hbig).2.mpr hword'⟩

/-- The words become decimals that are no numbers, while the floats of that name have none. -/
theorem word_becomes_decimal :
    (MemberType.primitive .decimal).convert? (.string "NaN") = some (.decimal "NaN") ∧
      (Value.decimal "NaN").rational? = none ∧
      (MemberType.primitive .decimal).convert? (.string " -Infinity ") = some (.decimal "-Infinity") ∧
      (Value.decimal "-Infinity").rational? = none ∧
      (MemberType.primitive .decimal).convert? (.double ⟨0x7ff8000000000000⟩) = none ∧
      (MemberType.primitive .decimal).convert? (.double ⟨0xfff0000000000000⟩) = none := by
  have hnan : readDecimal "NaN" = some .notANumber := by decide
  have hinfinite : readDecimal "-Infinity" = some (.infinite true) := by decide
  refine ⟨by decide, ?_, by decide, ?_, by decide, by decide⟩
  · rw [Value.rational?, hnan]
    rfl
  · rw [Value.rational?, hinfinite]
    rfl

end SqlMapping
