import SqlMapping.Number.Decimal
import SqlMapping.Text.Blank
import Mathlib.Data.List.TakeWhile
import SqlMapping.Proofs.Number.Nearest

/-!
# Numerals that are read

A numeral has no blanks, and an integer numeral denotes its integer as a decimal too. The double that a decimal is read
as denotes a number that is off by at most a half of its last digit (`Double.rational?_ofDecimal`), and the very number
if there is such a double (`Double.rational?_ofDecimal_of_represents`).
-/

namespace SqlMapping

/-! ## Characters of numerals -/

def isNumeralChar (c : Char) : Bool := c.isDigit || ['-', '+', '.', 'e', 'E'].contains c

theorem digit_range {c : Char} (h : c.isDigit = true) : 48 ≤ c.toNat ∧ c.toNat ≤ 57 := by
  simpa [Char.isDigit, UInt32.le_iff_toNat_le] using h

theorem isBlank_of_isDigit {c : Char} (h : c.isDigit = true) : isBlank c = false := by
  have hrange := digit_range h
  simp only [isBlank, blankRanges, List.any_cons, List.any_nil, Bool.or_false, Bool.or_eq_false_iff,
    Bool.and_eq_false_iff, decide_eq_false_iff_not]
  omega

theorem toLower_of_not_upper {c : Char} (h : c.toNat < 65 ∨ 90 < c.toNat) : c.toLower = c := by
  have hsmall : ¬ (c.val ≥ 'A'.val ∧ c.val ≤ 'Z'.val) := by
    rintro ⟨hge, hle⟩
    have hlow : 65 ≤ c.toNat := UInt32.le_iff_toNat_le.mp hge
    have hhigh : c.toNat ≤ 90 := UInt32.le_iff_toNat_le.mp hle
    omega
  exact dif_neg hsmall

theorem toLower_of_isDigit {c : Char} (h : c.isDigit = true) : c.toLower = c := by
  have hrange := digit_range h
  exact toLower_of_not_upper (by omega)

theorem toLower_of_isBlank {c : Char} (h : isBlank c = true) : c.toLower = c := by
  simp only [isBlank, blankRanges, List.any_cons, List.any_nil, Bool.or_false, Bool.or_eq_true, Bool.and_eq_true,
    decide_eq_true_eq] at h
  exact toLower_of_not_upper (by omega)

theorem isBlank_of_isNumeralChar {c : Char} (h : isNumeralChar c = true) : isBlank c = false := by
  simp only [isNumeralChar, Bool.or_eq_true, List.contains_iff_mem, List.mem_cons, List.not_mem_nil, or_false] at h
  obtain h | rfl | rfl | rfl | rfl | rfl := h
  · exact isBlank_of_isDigit h
  all_goals decide

theorem isBlank_of_any {cs : List Char} (h : cs.any isBlank = false) : ∀ c ∈ cs, isBlank c = false := by
  simpa using h

theorem trimChars_eq_self {cs : List Char} (h : ∀ c ∈ cs, isBlank c = false) : trimChars cs = cs := by
  have hdrop : ∀ {cs : List Char}, (∀ c ∈ cs, isBlank c = false) → cs.dropWhile isBlank = cs := by
    intro cs h
    cases cs with
    | nil => rfl
    | cons c cs => rw [List.dropWhile_cons_of_neg (by simp [h c])]
  rw [trimChars, hdrop h, hdrop fun c hc => h c (List.mem_reverse.mp hc), List.reverse_reverse]

theorem trimBlanks_eq_self {t : String} (h : ∀ c ∈ t.toList, isBlank c = false) : trimBlanks t = t := by
  rw [trimBlanks, trimChars_eq_self h, String.ofList_toList]

theorem isBlank_of_map_toLower {cs word : List Char} (h : cs.map Char.toLower = word)
    (hword : word.any isBlank = false) : ∀ c ∈ cs, isBlank c = false := by
  intro c hc
  refine Bool.eq_false_iff.mpr fun hblank => ?_
  have hmem : c ∈ word := by
    rw [← h, ← toLower_of_isBlank hblank]
    exact List.mem_map_of_mem hc
  exact List.any_eq_false.mp hword c hmem hblank

theorem digits_of_readNat {cs : List Char} {n : ℕ} (h : readNat cs = some n) :
    cs ≠ [] ∧ (∀ c ∈ cs, c.isDigit = true) ∧ n = natOfDigits cs := by
  unfold readNat at h
  split at h
  · rename_i hcs
    exact ⟨hcs.1, by simpa using hcs.2, (Option.some.inj h).symm⟩
  · cases h

theorem isNumeralChar_of_isDigit {c : Char} (h : c.isDigit = true) : isNumeralChar c = true := by
  simp [isNumeralChar, h]

theorem forall_mem_of_takeSign {p : Char → Prop} (hminus : p '-') (hplus : p '+') {cs : List Char}
    (h : ∀ c ∈ (takeSign cs).2, p c) : ∀ c ∈ cs, p c := by
  unfold takeSign at h
  split at h
  · exact List.forall_mem_cons.mpr ⟨hminus, h⟩
  · exact List.forall_mem_cons.mpr ⟨hplus, h⟩
  · exact h

theorem isNumeralChar_of_takeSign {cs : List Char} (h : ∀ c ∈ (takeSign cs).2, isNumeralChar c = true) :
    ∀ c ∈ cs, isNumeralChar c = true :=
  forall_mem_of_takeSign (by decide) (by decide) h

theorem isNumeralChar_of_readExponent {cs : List Char} {e : ℤ} (h : readExponent cs = some e) :
    ∀ c ∈ cs, isNumeralChar c = true := by
  cases cs with
  | nil => simp
  | cons c cs =>
    rw [readExponent] at h
    obtain ⟨hc, h⟩ := Option.ite_none_right_eq_some.mp h
    obtain ⟨_, h, -⟩ := Option.map_eq_some_iff.mp h
    obtain ⟨n, hn, -⟩ := Option.bind_eq_some_iff.mp h
    refine List.forall_mem_cons.mpr ⟨?_, isNumeralChar_of_takeSign fun d hd => ?_⟩
    · obtain rfl | rfl := hc <;> decide
    · exact isNumeralChar_of_isDigit ((digits_of_readNat hn).2.1 d hd)

theorem isNumeralChar_of_digits {cs : List Char} (h : ∀ c ∈ cs.dropWhile Char.isDigit, isNumeralChar c = true) :
    ∀ c ∈ cs, isNumeralChar c = true := by
  rw [← List.takeWhile_append_dropWhile (p := Char.isDigit) (l := cs), List.forall_mem_append]
  exact ⟨fun c hc => isNumeralChar_of_isDigit (List.mem_takeWhile_imp hc), h⟩

theorem isNumeralChar_of_readUnsignedDecimal {cs : List Char} {r : ℕ × ℤ} (h : readUnsignedDecimal cs = some r) :
    ∀ c ∈ cs, isNumeralChar c = true := by
  refine isNumeralChar_of_digits ?_
  unfold readUnsignedDecimal at h
  dsimp only at h
  -- with a point behind the first digits, or without
  split at h
  · rename_i more hmore
    obtain ⟨-, h⟩ := Option.ite_none_left_eq_some.mp h
    obtain ⟨e, he, -⟩ := Option.map_eq_some_iff.mp h
    rw [hmore]
    exact List.forall_mem_cons.mpr ⟨by decide, isNumeralChar_of_digits (isNumeralChar_of_readExponent he)⟩
  · obtain ⟨-, h⟩ := Option.ite_none_left_eq_some.mp h
    obtain ⟨e, he, -⟩ := Option.map_eq_some_iff.mp h
    exact isNumeralChar_of_readExponent he

theorem trimBlanks_of_readDecimal {t : String} {x : DecimalValue} (h : readDecimal t = some x) : trimBlanks t = t := by
  refine trimBlanks_eq_self (forall_mem_of_takeSign (by decide) (by decide) ?_)
  unfold readDecimal readDecimalChars at h
  dsimp only at h
  split at h
  · rename_i hword
    exact isBlank_of_map_toLower hword (by decide)
  split at h
  · rename_i hword
    obtain hword | hword := hword
    · exact isBlank_of_map_toLower hword (by decide)
    · exact isBlank_of_map_toLower hword (by decide)
  · obtain ⟨r, hr, -⟩ := Option.map_eq_some_iff.mp h
    exact fun c hc => isBlank_of_isNumeralChar (isNumeralChar_of_readUnsignedDecimal hr c hc)

/-! ## Integer numerals -/

theorem readSigned_eq (cs : List Char) :
    readSigned cs = (readNat (takeSign cs).2).map fun d : ℕ => if (takeSign cs).1 then -(d : ℤ) else d := by
  unfold readSigned takeSign
  split <;> simp [Option.map_eq_bind, Option.bind_assoc]

theorem readUnsignedDecimal_of_readNat {cs : List Char} {n : ℕ} (h : readNat cs = some n) :
    readUnsignedDecimal cs = some (n, 0) := by
  obtain ⟨hne, hdigits, rfl⟩ := digits_of_readNat h
  have htake : cs.takeWhile Char.isDigit = cs := List.takeWhile_eq_self_iff.mpr hdigits
  have hdrop : cs.dropWhile Char.isDigit = [] := List.dropWhile_eq_nil_iff.mpr hdigits
  unfold readUnsignedDecimal
  simp [htake, hdrop, hne, readExponent]

theorem readDecimalChars_of_readSigned {cs : List Char} {n : ℤ} (h : readSigned cs = some n) :
    ∃ (negative : Bool) (d : ℕ), readDecimalChars cs = some (.number negative d 0) ∧
      n = if negative then -(d : ℤ) else d := by
  rw [readSigned_eq] at h
  obtain ⟨d, hd, rfl⟩ := Option.map_eq_some_iff.mp h
  refine ⟨(takeSign cs).1, d, ?_, rfl⟩
  obtain ⟨hne, hdigits, -⟩ := digits_of_readNat hd
  have hlower : (takeSign cs).2.map Char.toLower = (takeSign cs).2 := by
    rw [List.map_congr_left fun c hc => toLower_of_isDigit (hdigits c hc), List.map_id']
  have hword : ∀ {word : List Char}, word.any Char.isDigit = false → (takeSign cs).2 ≠ word := by
    rintro _ hword rfl
    obtain ⟨c, hc⟩ := List.exists_mem_of_ne_nil _ hne
    exact List.any_eq_false.mp hword c hc (hdigits c hc)
  unfold readDecimalChars
  dsimp only
  rw [hlower, if_neg (hword (by decide)), if_neg, readUnsignedDecimal_of_readNat hd]
  · rfl
  · exact not_or.mpr ⟨hword (by decide), hword (by decide)⟩

/-! ## Decimals that are read as doubles -/

def DecimalValue.rational? : DecimalValue → Option ℚ
  | .number negative digits exponent => some (signed negative (digits * 10 ^ exponent))
  | .infinite _ | .notANumber => none

namespace Double

theorem value_ofValue_infinite (negative : Bool) : (ofValue (.infinite negative)).value = .infinite negative := by
  cases negative <;> decide

theorem two_pow_lt_ten_pow : (2 : ℚ) ^ 1075 < 10 ^ (401 : ℤ) := by
  calc (2 : ℚ) ^ 1075 ≤ 2 ^ (3 * 401) := pow_le_pow_right₀ one_le_two (by decide)
    _ = (2 ^ 3) ^ 401 := pow_mul 2 3 401
    _ < 10 ^ 401 := pow_lt_pow_left₀ (by norm_num) (by norm_num) (by decide)

theorem two_pow_le_of_limit {d : ℕ} {e : ℤ} (hd : d ≠ 0) (he : exponentLimit < e) : (2 : ℚ) ^ 1075 ≤ d * 10 ^ e := by
  have hexp : (401 : ℤ) ≤ e := by simp only [exponentLimit] at he; omega
  have hd' : (1 : ℚ) ≤ d := by exact_mod_cast Nat.one_le_iff_ne_zero.mpr hd
  calc (2 : ℚ) ^ 1075 ≤ 10 ^ (401 : ℤ) := two_pow_lt_ten_pow.le
    _ ≤ 10 ^ e := zpow_le_zpow_right₀ (by norm_num) hexp
    _ ≤ d * 10 ^ e := le_mul_of_one_le_left (by positivity) hd'

theorem lt_of_limit {d : ℕ} {e : ℤ} (he : e < -(exponentLimit + Nat.log2 d + 1 : ℕ)) :
    (d : ℚ) * 10 ^ e < 1 / 2 ^ 1075 := by
  have hd : (d : ℚ) < 10 ^ ((Nat.log2 d + 1 : ℕ) : ℤ) := by
    rw [zpow_natCast]
    calc (d : ℚ) < (2 ^ (Nat.log2 d + 1) : ℕ) := by exact_mod_cast Nat.lt_log2_self
      _ ≤ 10 ^ (Nat.log2 d + 1) := by push_cast; gcongr; norm_num
  calc (d : ℚ) * 10 ^ e < 10 ^ ((Nat.log2 d + 1 : ℕ) : ℤ) * 10 ^ e := by gcongr
    _ = 10 ^ ((Nat.log2 d + 1 : ℕ) + e) := by rw [zpow_add₀ (by norm_num)]
    _ ≤ 10 ^ (-401 : ℤ) := zpow_le_zpow_right₀ (by norm_num) (by simp only [exponentLimit] at he; omega)
    _ = 1 / 10 ^ (401 : ℤ) := by rw [zpow_neg, one_div]
    _ < 1 / 2 ^ 1075 := one_div_lt_one_div_of_lt (by positivity) two_pow_lt_ten_pow

/-- The fraction of a decimal whose exponent is within the limits. -/
theorem div_decimalFraction (d : ℕ) (e : ℤ) :
    (if 0 ≤ e then ((d * Nat.pow 10 e.toNat : ℕ) : ℚ) / (1 : ℕ) else d / (Nat.pow 10 (-e).toNat : ℕ)) = d * 10 ^ e := by
  split
  · rename_i he
    obtain ⟨n, rfl⟩ := Int.eq_ofNat_of_zero_le he
    simp
  · rename_i he
    obtain ⟨n, hn⟩ := Int.eq_ofNat_of_zero_le (a := -e) (by omega)
    obtain rfl : e = -n := by omega
    simp [div_eq_mul_inv]

/-- How a decimal becomes a double: as a fraction, or by its size alone. -/
theorem ofDecimal_cases (negative : Bool) (d : ℕ) (e : ℤ) :
    (∃ num den : ℕ, 0 < den ∧ (num : ℚ) / den = d * 10 ^ e ∧ ofDecimal negative d e = ofFraction negative num den) ∨
      (ofDecimal negative d e = ofValue (.infinite negative) ∧ (2 : ℚ) ^ 1075 ≤ d * 10 ^ e) ∨
      ofDecimal negative d e = ofFraction negative 0 1 ∧ 0 < (d : ℚ) * 10 ^ e ∧ (d : ℚ) * 10 ^ e < 1 / 2 ^ 1075 := by
  unfold ofDecimal
  split
  · rename_i hd
    exact .inl ⟨0, 1, one_pos, by simp [hd], rfl⟩
  rename_i hd
  split
  · rename_i he
    exact .inr (.inl ⟨rfl, two_pow_le_of_limit hd he⟩)
  split
  · rename_i he
    have hpos : (0 : ℚ) < d := by exact_mod_cast Nat.pos_of_ne_zero hd
    exact .inr (.inr ⟨rfl, by positivity, lt_of_limit he⟩)
  left
  have hfraction := div_decimalFraction d e
  split
  · rename_i he
    exact ⟨_, 1, one_pos, by rwa [if_pos he] at hfraction, rfl⟩
  · rename_i he
    exact ⟨d, _, Nat.pow_pos (by decide), by rwa [if_neg he] at hfraction, rfl⟩

/-- The double that a decimal is read as is off by at most a half of its last digit; only a decimal that is beyond the
doubles is taken to be infinite. -/
theorem rational?_ofDecimal (negative : Bool) (d : ℕ) (e : ℤ) :
    (∃ y, (ofDecimal negative d e).value.rational? = some (signed negative y) ∧
        |y - d * 10 ^ e| ≤ d * 10 ^ e / 2 ^ 53 + 1 / 2 ^ 1075) ∨
      (ofDecimal negative d e).value = .infinite negative ∧ (2 : ℚ) ^ 1023 ≤ d * 10 ^ e := by
  obtain ⟨num, den, hden, heq, hx⟩ | ⟨hx, hbeyond⟩ | ⟨hx, hpos, hsmall⟩ := ofDecimal_cases negative d e
  · rw [hx, ← heq]
    exact rational?_ofFraction negative num hden
  · rw [hx, value_ofValue_infinite]
    exact .inr ⟨rfl, le_trans (pow_le_pow_right₀ one_le_two (by decide)) hbeyond⟩
  · refine .inl ⟨0, ?_, ?_⟩
    · rw [hx, value_ofFraction]
      exact FloatFormat.rational?_zero (by decide) negative
    · rw [zero_sub, abs_neg, abs_of_pos hpos]
      exact hsmall.le.trans (le_add_of_nonneg_left (by positivity))

theorem lt_of_represents {r : ℚ} (hr : FloatFormat.double.Represents r) : r < 2 ^ 1024 := by
  obtain ⟨m, e, hm, -, he, rfl⟩ := hr
  have hm' : (m : ℚ) < 2 ^ (53 : ℤ) := by
    have : m < 2 ^ 53 := hm
    exact_mod_cast this
  calc (m : ℚ) * 2 ^ e < 2 ^ (53 : ℤ) * 2 ^ e := by gcongr
    _ = 2 ^ (53 + e) := by rw [zpow_add₀ two_ne_zero]
    _ ≤ 2 ^ ((1024 : ℕ) : ℤ) := zpow_le_zpow_right₀ one_le_two (by
      have : e ≤ 971 := he
      omega)
    _ = 2 ^ 1024 := zpow_natCast 2 1024

theorem le_of_represents {r : ℚ} (hr : FloatFormat.double.Represents r) (hpos : 0 < r) : 1 / 2 ^ 1074 ≤ r := by
  obtain ⟨m, e, -, he, -, rfl⟩ := hr
  have hm : (1 : ℚ) ≤ m := by
    exact_mod_cast Nat.one_le_iff_ne_zero.mpr fun h => by simp [h] at hpos
  calc (1 : ℚ) / 2 ^ 1074 = 2 ^ (-1074 : ℤ) := by rw [zpow_neg, one_div]; rfl
    _ ≤ 2 ^ e := zpow_le_zpow_right₀ one_le_two he
    _ ≤ m * 2 ^ e := le_mul_of_one_le_left (by positivity) hm

theorem rational?_ofDecimal_of_represents {negative : Bool} {d : ℕ} {e : ℤ}
    (hr : FloatFormat.double.Represents (d * 10 ^ e)) :
    (ofDecimal negative d e).value.rational? = some (signed negative (d * 10 ^ e)) := by
  obtain ⟨num, den, hden, heq, hx⟩ | ⟨-, hbeyond⟩ | ⟨-, hpos, hsmall⟩ := ofDecimal_cases negative d e
  · rw [← heq] at hr
    rw [hx, rational?_ofFraction_of_represents hden hr, heq]
  · have hpow : (2 : ℚ) ^ 1024 ≤ 2 ^ 1075 := pow_le_pow_right₀ one_le_two (by decide)
    exact absurd (lt_of_represents hr) (not_lt.mpr (hpow.trans hbeyond))
  · have hpow : (1 : ℚ) / 2 ^ 1075 ≤ 1 / 2 ^ 1074 :=
      one_div_le_one_div_of_le (by positivity) (pow_le_pow_right₀ one_le_two (by decide))
    exact absurd (hsmall.trans_le (hpow.trans (le_of_represents hr hpos))) (lt_irrefl _)

end Double

end SqlMapping
