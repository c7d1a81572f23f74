import SqlMapping.Proofs.Number.Numerals

/-!
# Numbers too large for a format

Which numbers are rounded to infinity, and which to what is infinite in a smaller format.
`FloatFormat.isSome_rational?_nearest`: the nearest number of a format is finite below one magnitude, its overflow.
`Double.Nears` says what becomes of a number whose nearest double is converted once more.
-/

namespace SqlMapping

namespace FloatFormat

variable {f : FloatFormat}

/-! ## The order of patterns -/

/-- A step further on, the last digit counts at least twice as much. -/
theorem mul_digit_le {steps t : ℕ} (h : steps < t) {x : ℚ} (hx : x ≤ 2 * f.fractionLimit) :
    x * 2 ^ (f.leastExponent + steps) ≤ f.fractionLimit * 2 ^ (f.leastExponent + t) := by
  have hdouble : (2 : ℚ) ^ (f.leastExponent + steps) * 2 ≤ 2 ^ (f.leastExponent + t) := by
    rw [← zpow_add_one₀ two_ne_zero]
    exact zpow_le_zpow_right₀ one_le_two (by omega)
  calc x * 2 ^ (f.leastExponent + steps) ≤ 2 * f.fractionLimit * 2 ^ (f.leastExponent + steps) := by gcongr
    _ = f.fractionLimit * (2 ^ (f.leastExponent + steps) * 2) := by ring
    _ ≤ f.fractionLimit * 2 ^ (f.leastExponent + t) := by gcongr

theorem steps_mul_limit_le {steps t : ℕ} (h : steps < t) :
    steps * f.fractionLimit + f.fractionLimit ≤ t * f.fractionLimit := by
  rw [← Nat.succ_mul]
  exact Nat.mul_le_mul_right _ h

/-- Steps and significand are ordered as the numbers that they make. -/
theorem steps_lt_iff {s steps m t : ℕ} (hs : s ≤ 2 * f.fractionLimit) (hnormal : 0 < steps → f.fractionLimit ≤ s)
    (hm : f.fractionLimit < m) (hm' : m ≤ 2 * f.fractionLimit) :
    steps * f.fractionLimit + s < t * f.fractionLimit + m ↔
      (s : ℚ) * 2 ^ (f.leastExponent + steps) < m * 2 ^ (f.leastExponent + t) := by
  obtain hlt | rfl | hgt := Nat.lt_trichotomy steps t
  · have hmul := f.steps_mul_limit_le hlt
    have hlimit : (f.fractionLimit : ℚ) < m := by exact_mod_cast hm
    have hle := mul_digit_le hlt (x := s) (by exact_mod_cast hs)
    exact iff_of_true (by omega) (hle.trans_lt (by gcongr))
  · have hpow : (0 : ℚ) < 2 ^ (f.leastExponent + steps) := by positivity
    rw [mul_lt_mul_iff_left₀ hpow, Nat.cast_lt, Nat.add_lt_add_iff_left]
  · have hmul := f.steps_mul_limit_le hgt
    have hlow := hnormal (by omega)
    have hlimit : (f.fractionLimit : ℚ) ≤ s := by exact_mod_cast hlow
    have hle := mul_digit_le hgt (x := m) (by exact_mod_cast hm')
    exact iff_of_false (by omega) (not_lt.mpr (hle.trans (by gcongr)))

/-- The steps and the significand of a pattern. -/
theorem exists_steps (f : FloatFormat) (p : ℕ) : ∃ s steps, p = steps * f.fractionLimit + s ∧
    s ≤ 2 * f.fractionLimit ∧ (0 < steps → f.fractionLimit ≤ s) := by
  have hdiv := Nat.div_add_mod p f.fractionLimit
  have hmod := Nat.mod_lt p f.fractionLimit_pos
  obtain hzero | hpos := Nat.eq_zero_or_pos (p / f.fractionLimit)
  · rw [hzero] at hdiv
    exact ⟨p, 0, by omega, by omega, fun h => absurd h (lt_irrefl 0)⟩
  · obtain ⟨code, hcode⟩ := Nat.exists_eq_add_of_le' hpos
    rw [hcode, Nat.mul_add, Nat.mul_comm] at hdiv
    exact ⟨f.fractionLimit + p % f.fractionLimit, code, by omega, by omega, fun _ => by omega⟩

/-- A pattern below infinity denotes a number that is ordered as the pattern is. -/
theorem exists_rational? {p : ℕ} (hp : p < f.infinity) (negative : Bool) :
    ∃ y, (f.decodeMagnitude negative p).rational? = some (signed negative y) ∧ 0 ≤ y ∧
      ∀ {m t : ℕ}, f.fractionLimit < m → m ≤ 2 * f.fractionLimit →
        (p < t * f.fractionLimit + m ↔ y < m * 2 ^ (f.leastExponent + t)) := by
  obtain ⟨s, steps, rfl, hs, hnormal⟩ := f.exists_steps p
  exact ⟨_, rational?_decodeMagnitude hs hnormal hp, by positivity, fun hm hm' => steps_lt_iff hs hnormal hm hm'⟩

/-! ## Rounding over a bound -/

theorem fractionLimit_eq_zpow : (f.fractionLimit : ℚ) = 2 ^ ((f.precision - 1 : ℕ) : ℤ) := by simp [fractionLimit]

section
variable {num den s steps m t : ℕ} (h : f.IsNearest num den s steps)
include h

/-- A number of fewer digits is below the bound. -/
theorem IsNearest.lt_of_steps_lt (hlt : steps < t) (hm : f.fractionLimit < m) :
    (num : ℚ) / den < (m - 1 / 2) * 2 ^ (f.leastExponent + t) := by
  have hlow : (f.fractionLimit : ℚ) + 1 ≤ m := by exact_mod_cast hm
  calc (num : ℚ) / den < 2 ^ (f.leastExponent + steps + (f.precision - 1 : ℕ) + 1) := h.below
    _ = 2 * f.fractionLimit * 2 ^ (f.leastExponent + steps) := by
      rw [zpow_add_one₀ two_ne_zero, zpow_add₀ two_ne_zero _ ((f.precision - 1 : ℕ) : ℤ), ← fractionLimit_eq_zpow]
      ring
    _ ≤ f.fractionLimit * 2 ^ (f.leastExponent + t) := mul_digit_le hlt le_rfl
    _ ≤ (m - 1 / 2) * 2 ^ (f.leastExponent + t) := by gcongr; linarith

/-- A number of more digits is above it. -/
theorem IsNearest.le_of_lt_steps (hgt : t < steps) (hm : m ≤ 2 * f.fractionLimit) :
    (m - 1 / 2) * 2 ^ (f.leastExponent + t) ≤ (num : ℚ) / den := by
  have hhigh : (m : ℚ) ≤ 2 * f.fractionLimit := by exact_mod_cast hm
  calc (m - 1 / 2) * (2 : ℚ) ^ (f.leastExponent + t) ≤ f.fractionLimit * 2 ^ (f.leastExponent + steps) :=
        mul_digit_le hgt (by linarith)
    _ = 2 ^ (f.leastExponent + steps + (f.precision - 1 : ℕ)) := by
      rw [zpow_add₀ two_ne_zero _ ((f.precision - 1 : ℕ) : ℤ), ← fractionLimit_eq_zpow, mul_comm]
    _ ≤ num / den := (h.normal (by omega)).2

/-- Among numbers of as many digits, one half a digit below an even significand is rounded up to it. -/
theorem IsNearest.significand_lt_iff
    (htie : (num : ℚ) / den = (s + 1 / 2) * 2 ^ (f.leastExponent + steps) → Even s) (heven : Even m) :
    s < m ↔ (num : ℚ) / den < (m - 1 / 2) * 2 ^ (f.leastExponent + steps) := by
  have hpow : (0 : ℚ) < 2 ^ (f.leastExponent + steps) := by positivity
  obtain ⟨herror, herror'⟩ := abs_le.mp h.error
  constructor
  · intro hlt
    have hle : (s : ℚ) + 1 ≤ m := by exact_mod_cast hlt
    refine lt_of_le_of_ne (by nlinarith) fun heq => ?_
    -- only halfway between the bound and the odd significand below it
    have hs : s + 1 = m := by
      have : (m : ℚ) ≤ s + 1 := by nlinarith
      exact le_antisymm hlt (by exact_mod_cast this)
    have hodd : Even s := htie (by rw [heq, ← hs]; push_cast; ring)
    rw [← hs, Nat.even_add_one] at heven
    exact heven hodd
  · intro hlt
    have : (s : ℚ) < m := by nlinarith
    exact_mod_cast this

theorem IsNearest.lt_iff (htie : (num : ℚ) / den = (s + 1 / 2) * 2 ^ (f.leastExponent + steps) → Even s)
    (hm : f.fractionLimit < m) (hm' : m ≤ 2 * f.fractionLimit) (heven : Even m) :
    steps * f.fractionLimit + s < t * f.fractionLimit + m ↔
      (num : ℚ) / den < (m - 1 / 2) * 2 ^ (f.leastExponent + t) := by
  have hupper := h.upper
  obtain hlt | rfl | hgt := Nat.lt_trichotomy steps t
  · have hmul := f.steps_mul_limit_le hlt
    exact iff_of_true (by omega) (h.lt_of_steps_lt hlt hm)
  · rw [Nat.add_lt_add_iff_left, h.significand_lt_iff htie heven]
  · have hmul := f.steps_mul_limit_le hgt
    have hs := (h.normal (by omega)).1
    exact iff_of_false (by omega) (not_lt.mpr (h.le_of_lt_steps hgt hm'))

end

/-- What is rounded to less than an even significand is less than half a digit below it. -/
theorem nearest_lt_iff {num den : ℕ} (hden : 0 < den) {m t : ℕ} (hm : f.fractionLimit < m)
    (hm' : m ≤ 2 * f.fractionLimit) (heven : Even m) (hfinite : t * f.fractionLimit + m ≤ f.infinity) :
    f.nearest num den < t * f.fractionLimit + m ↔ (num : ℚ) / den < (m - 1 / 2) * 2 ^ (f.leastExponent + t) := by
  have hlimit := f.fractionLimit_pos
  have hone : (1 : ℚ) ≤ m := by exact_mod_cast (show 1 ≤ m by omega)
  obtain rfl | hnum := Nat.eq_zero_or_pos num
  · have hhalf : (0 : ℚ) < m - 1 / 2 := by linarith
    rw [nearest_zero, Nat.cast_zero, zero_div]
    exact ⟨fun _ => by positivity, fun _ => by omega⟩
  · obtain ⟨s, steps, h, htie⟩ := exists_isNearest_even (f := f) hnum hden
    rw [← h.lt_iff htie hm hm' heven, h.pattern, min_lt_iff, or_iff_left (Nat.not_lt.mpr hfinite)]

/-- The least magnitude that is rounded to infinity: half a digit above the greatest number of the format. -/
def overflow (f : FloatFormat) : ℚ :=
  (2 * f.fractionLimit - 1 / 2) * 2 ^ (f.leastExponent + (f.specialCode - 2 : ℕ))

theorem nearest_lt_infinity_iff (hf : 1 < f.specialCode) {num den : ℕ} (hden : 0 < den) :
    f.nearest num den < f.infinity ↔ (num : ℚ) / den < f.overflow := by
  have hlimit := f.fractionLimit_pos
  have htop : (f.specialCode - 2) * f.fractionLimit + 2 * f.fractionLimit = f.infinity := by
    rw [← Nat.add_mul, Nat.sub_add_cancel hf, infinity]
  rw [← htop, nearest_lt_iff hden (by omega) le_rfl (even_two_mul _) htop.le, overflow]
  push_cast
  rfl

theorem isSome_rational?_nearest (hf : 1 < f.specialCode) (negative : Bool) {num den : ℕ} (hden : 0 < den) :
    (f.decodeMagnitude negative (f.nearest num den)).rational?.isSome = true ↔ (num : ℚ) / den < f.overflow := by
  rw [← nearest_lt_infinity_iff hf hden]
  obtain hlt | heq := Nat.lt_or_eq_of_le (f.nearest_le_infinity num den)
  · obtain ⟨y, hy, -⟩ := exists_rational? hlt negative
    simp [hy, hlt]
  · simp [heq, decodeMagnitude_infinity, FloatValue.rational?]

end FloatFormat

/-! ## Singles of doubles -/

theorem Single.value_ofFraction (negative : Bool) (num den : ℕ) : (ofFraction negative num den).value =
    FloatFormat.single.decodeMagnitude negative (FloatFormat.single.nearest num den) := by
  rw [value, ofFraction, UInt32.toNat_ofNat']
  exact FloatFormat.decode_encode_nearest (by decide) negative num den

theorem Double.isSome_rational?_toSingle (x : Double) : x.toSingle.value.rational?.isSome = true ↔
    ∃ r, x.value.rational? = some r ∧ |r| < FloatFormat.single.overflow := by
  unfold toSingle
  cases hx : x.value with
  | notANumber => exact ⟨fun h => absurd h (by decide), fun ⟨r, hr, _⟩ => by cases hr⟩
  | infinite negative =>
    refine ⟨fun h => absurd h ?_, fun ⟨r, hr, _⟩ => by cases hr⟩
    cases negative <;> decide
  | finite negative m e =>
    have hvalue : Single.ofValue (.finite negative m e) =
      Single.ofFraction negative (FloatValue.fraction m e).1 (FloatValue.fraction m e).2 := rfl
    have hpos : (0 : ℚ) ≤ m * 2 ^ e := by positivity
    rw [hvalue, Single.value_ofFraction, FloatFormat.isSome_rational?_nearest (by decide) negative
      (FloatValue.fraction_pos m e), FloatValue.div_fraction]
    simp only [FloatValue.rational?, Option.some.injEq, exists_eq_left', abs_signed, abs_of_nonneg hpos]

/-! ## Doubles that stand for a number -/

/-- The overflow of singles, brought down by what a double is rounded up to it. -/
def singleOverflow : ℚ := 2 ^ 128 - 2 ^ 103 - 2 ^ 74

def doubleOverflow : ℚ := 2 ^ 1024 - 2 ^ 970

theorem overflow_double : FloatFormat.double.overflow = doubleOverflow := by
  have hexponent : FloatFormat.double.leastExponent + (FloatFormat.double.specialCode - 2 : ℕ) = (971 : ℕ) := by decide
  have hlimit : (FloatFormat.double.fractionLimit : ℚ) = 2 ^ 52 := by
    norm_num [FloatFormat.fractionLimit, FloatFormat.double]
  have hpow : (2 : ℚ) ^ 1024 = 2 ^ 54 * 2 ^ 970 := by rw [← pow_add]
  rw [FloatFormat.overflow, hexponent, hlimit, zpow_natCast, doubleOverflow, hpow, pow_succ (2 : ℚ) 970]
  generalize (2 : ℚ) ^ 970 = x
  ring

theorem overflow_single : FloatFormat.single.overflow = 2 ^ 128 - 2 ^ 103 := by
  have hexponent : FloatFormat.single.leastExponent + (FloatFormat.single.specialCode - 2 : ℕ) = (104 : ℕ) := by decide
  have hlimit : (FloatFormat.single.fractionLimit : ℚ) = 2 ^ 23 := by
    norm_num [FloatFormat.fractionLimit, FloatFormat.single]
  rw [FloatFormat.overflow, hexponent, hlimit, zpow_natCast]
  norm_num

/-- The double is finite as far as `q` is, and so is the single that it is converted to. -/
structure Double.Nears (x : Double) (q : ℚ) : Prop where
  double : x.value.rational?.isSome = true ↔ |q| < doubleOverflow
  single : x.toSingle.value.rational?.isSome = true ↔ |q| < singleOverflow

namespace Double

/-- Pattern of the overflow of singles. -/
theorem nearest_lt_single_iff (num : ℕ) {den : ℕ} (hden : 0 < den) :
    FloatFormat.double.nearest num den < 1149 * FloatFormat.double.fractionLimit + (2 ^ 53 - 2 ^ 28) ↔
      (num : ℚ) / den < singleOverflow := by
  have hexponent : FloatFormat.double.leastExponent + (1149 : ℕ) = (75 : ℕ) := by decide
  rw [FloatFormat.nearest_lt_iff hden (by decide) (by decide) (by decide) (by decide), hexponent, zpow_natCast,
    singleOverflow]
  norm_num

theorem nears_ofFraction (negative : Bool) (num : ℕ) {den : ℕ} (hden : 0 < den) :
    (ofFraction negative num den).Nears (signed negative (num / den)) := by
  have hratio : (0 : ℚ) ≤ num / den := by positivity
  constructor
  · rw [value_ofFraction, FloatFormat.isSome_rational?_nearest (by decide) negative hden, overflow_double, abs_signed,
      abs_of_nonneg hratio]
  rw [isSome_rational?_toSingle, value_ofFraction, abs_signed, abs_of_nonneg hratio, overflow_single,
    ← nearest_lt_single_iff num hden]
  obtain hlt | heq := Nat.lt_or_eq_of_le (FloatFormat.double.nearest_le_infinity num den)
  · have hexponent : FloatFormat.double.leastExponent + (1149 : ℕ) = (75 : ℕ) := by decide
    obtain ⟨y, hy, hpos, horder⟩ := FloatFormat.exists_rational? hlt negative
    rw [horder (t := 1149) (by decide) (by decide), hexponent, zpow_natCast, hy]
    simp only [Option.some.injEq, exists_eq_left', abs_signed, abs_of_nonneg hpos]
    norm_num
  · rw [heq, FloatFormat.decodeMagnitude_infinity]
    exact ⟨fun ⟨r, hr, _⟩ => (by cases hr), fun h => absurd h (by decide)⟩

theorem nears_of_rational? {x : Double} {q : ℚ} (h : x.value.rational? = some q) : x.Nears q := by
  have hr := represents_of_value h
  obtain ⟨m, e, -, -, -, heq⟩ := id hr
  have hden := FloatValue.fraction_pos m e
  have hratio := FloatValue.div_fraction m e
  rw [← heq] at hratio
  rw [← hratio] at hr
  -- its magnitude is the double nearest to itself
  have hself := @rational?_ofFraction_of_represents false _ _ hden hr
  have hnears := nears_ofFraction false (FloatValue.fraction m e).1 hden
  have hvalue : signed false |q| = |q| := rfl
  rw [hratio, hvalue] at hself hnears
  obtain ⟨hdouble, hsingle⟩ := hnears
  rw [isSome_rational?_toSingle] at hsingle
  rw [hself, abs_abs] at hdouble hsingle
  refine ⟨by rw [h, ← hdouble]; rfl, ?_⟩
  rw [isSome_rational?_toSingle, h, ← hsingle]
  simp only [Option.some.injEq, exists_eq_left', abs_abs]

theorem nears_ofInt (n : ℤ) : (ofInt n).Nears n := by
  have hcast : signed (decide (n < 0)) ((n.natAbs : ℚ) / (1 : ℕ)) = n := by
    rw [Nat.cast_one, div_one, Nat.cast_natAbs]
    obtain hneg | hpos := lt_or_ge n 0
    · simp [signed, hneg, abs_of_neg hneg]
    · simp [signed, not_lt.mpr hpos, abs_of_nonneg hpos]
  rw [← hcast]
  exact nears_ofFraction _ _ one_pos

theorem overflows_lt : singleOverflow < 2 ^ 1075 ∧ doubleOverflow < 2 ^ 1075 := by
  have hsingle : singleOverflow < 2 ^ 128 := by norm_num [singleOverflow]
  have hdouble : doubleOverflow < 2 ^ 1024 := sub_lt_self _ (by positivity)
  exact ⟨hsingle.trans_le (pow_le_pow_right₀ one_le_two (by decide)),
    hdouble.trans_le (pow_le_pow_right₀ one_le_two (by decide))⟩

theorem one_lt_overflows : 1 < singleOverflow ∧ 1 < doubleOverflow := by
  refine ⟨by norm_num [singleOverflow], ?_⟩
  have hpow : (2 : ℚ) ^ 971 ≤ 2 ^ 1024 := pow_le_pow_right₀ one_le_two (by decide)
  have hone : (1 : ℚ) < 2 ^ 970 := one_lt_pow₀ one_lt_two (by decide)
  rw [pow_succ] at hpow
  rw [doubleOverflow]
  generalize (2 : ℚ) ^ 970 = x at *
  generalize (2 : ℚ) ^ 1024 = y at *
  linarith

theorem nears_ofDecimal (negative : Bool) (d : ℕ) (e : ℤ) :
    (ofDecimal negative d e).Nears (signed negative (d * 10 ^ e)) := by
  have habs : |signed negative ((d : ℚ) * 10 ^ e)| = d * 10 ^ e := by
    rw [abs_signed, abs_of_nonneg (by positivity)]
  obtain ⟨num, den, hden, heq, hx⟩ | ⟨hx, hbeyond⟩ | ⟨hx, -, hsmall⟩ := ofDecimal_cases negative d e
  · rw [hx, ← heq]
    exact nears_ofFraction negative num hden
  · -- infinite, and so is the single
    have hvalue : (ofDecimal negative d e).value.rational? = none := by
      rw [hx, value_ofValue_infinite]
      rfl
    have hbeyond' := overflows_lt.imp hbeyond.trans_lt' hbeyond.trans_lt'
    constructor
    · rw [hvalue, habs]
      exact iff_of_false (by simp) (not_lt.mpr hbeyond'.2.le)
    · rw [isSome_rational?_toSingle, hvalue, habs]
      exact iff_of_false (by simp) (not_lt.mpr hbeyond'.1.le)
  · -- taken for zero
    have hone : (d : ℚ) * 10 ^ e < 1 := hsmall.trans_le (div_le_one_of_le₀ (one_le_pow₀ one_le_two) (by positivity))
    have hzero : |signed negative (((0 : ℕ) : ℚ) / (1 : ℕ))| = 0 := by simp [abs_signed]
    obtain ⟨hdouble, hsingle⟩ := nears_ofFraction negative 0 one_pos
    rw [hzero] at hdouble hsingle
    rw [hx]
    constructor
    · rw [hdouble, habs]
      exact iff_of_true (one_pos.trans one_lt_overflows.2) (hone.trans one_lt_overflows.2)
    · rw [hsingle, habs]
      exact iff_of_true (one_pos.trans one_lt_overflows.1) (hone.trans one_lt_overflows.1)

end Double

/-- A single is below the overflow of singles by a half of its last digit. -/
theorem Single.abs_lt_singleOverflow {x : Single} {q : ℚ} (h : x.value.rational? = some q) : |q| < singleOverflow := by
  unfold value FloatFormat.decode at h
  generalize hx : FloatFormat.single.decodeMagnitude _ _ = v at h
  cases v with
  | notANumber | infinite _ => cases h
  | finite negative m e =>
    cases h
    obtain ⟨m', e', hm, -, he, heq⟩ := FloatFormat.represents_of_decodeMagnitude (Nat.mod_lt _ (by decide)) hx
    have hm' : (m' : ℚ) ≤ 2 ^ 24 - 1 := by
      have : m' + 1 ≤ 2 ^ 24 := hm
      have : (m' : ℚ) + 1 ≤ 2 ^ 24 := by exact_mod_cast this
      linarith
    have hpow : (2 : ℚ) ^ e' ≤ 2 ^ 104 := by
      rw [← zpow_natCast]
      exact zpow_le_zpow_right₀ one_le_two he
    rw [abs_signed, abs_of_nonneg (by positivity), heq]
    calc (m' : ℚ) * 2 ^ e' ≤ (2 ^ 24 - 1) * 2 ^ 104 := by gcongr
      _ < singleOverflow := by norm_num [singleOverflow]

end SqlMapping
