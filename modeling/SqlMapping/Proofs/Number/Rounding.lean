import SqlMapping.Proofs.Number.Nearest

/-!
# The nearest integer

Rounding to an integer, halves away from zero. A decimal of up to fifteen digits and a number that is as near to it as a
double have the same nearest integer (`abs_sub_floor_lt`).
-/

namespace SqlMapping

theorem signed_sub (negative : Bool) (x y : ℚ) : signed negative x - signed negative y = signed negative (x - y) := by
  cases negative <;> simp [signed]
  ring

def nearestAway (q : ℚ) : ℤ := if q < 0 then -⌊-q + 1 / 2⌋ else ⌊q + 1 / 2⌋

theorem nearestAway_signed (negative : Bool) {x : ℚ} (hx : 0 ≤ x) :
    nearestAway (signed negative x) = if negative then -⌊x + 1 / 2⌋ else ⌊x + 1 / 2⌋ := by
  cases negative with
  | false => simp [nearestAway, signed, not_lt.mpr hx]
  | true =>
    obtain rfl | hpos := hx.eq_or_lt
    · norm_num [nearestAway, signed]
    · simp [nearestAway, signed, hpos]

theorem floor_add_half_eq_iff {x : ℚ} (hx : 0 ≤ x) {n : ℤ} :
    ⌊x + 1 / 2⌋ = n ↔ |x - n| < 1 / 2 ∨ |x - n| = 1 / 2 ∧ |x| < |(n : ℚ)| := by
  rw [Int.floor_eq_iff]
  constructor
  · rintro ⟨hlow, hhigh⟩
    obtain hlt | heq := (show (n : ℚ) - 1 / 2 ≤ x by linarith).lt_or_eq
    · exact .inl (abs_lt.mpr ⟨by linarith, by linarith⟩)
    · have hdiff : x - n = -(1 / 2) := by linarith
      refine .inr ⟨by rw [hdiff, abs_neg, abs_of_pos one_half_pos], ?_⟩
      rw [abs_of_nonneg hx, abs_of_nonneg (by linarith)]
      linarith
  · rintro (hlt | ⟨heq, hless⟩)
    · have := abs_lt.mp hlt
      exact ⟨by linarith, by linarith⟩
    · obtain habove | hbelow := (abs_eq one_half_pos.le).mp heq
      · -- an integer below is no farther from zero than x is, unless it is negative, and then it is too far away
        rw [abs_of_nonneg hx] at hless
        obtain hn | hn := lt_or_ge n 0
        · have : (n : ℚ) ≤ -1 := by exact_mod_cast Int.le_sub_one_of_lt hn
          linarith
        · rw [abs_of_nonneg (by exact_mod_cast hn)] at hless
          linarith
      · exact ⟨by linarith, by linarith⟩

theorem nearestAway_eq_iff {q : ℚ} {n : ℤ} :
    nearestAway q = n ↔ |q - n| < 1 / 2 ∨ |q - n| = 1 / 2 ∧ |q| < |(n : ℚ)| := by
  unfold nearestAway
  split
  · rename_i hq
    rw [neg_eq_iff_eq_neg, floor_add_half_eq_iff (neg_nonneg.mpr hq.le), Int.cast_neg, neg_sub_neg, abs_sub_comm,
      abs_neg, abs_neg]
  · rename_i hq
    exact floor_add_half_eq_iff (not_lt.mp hq)

theorem nearestAway_intCast (n : ℤ) : nearestAway n = n := nearestAway_eq_iff.mpr (.inl (by simp))

theorem FloatValue.roundHalfAway_eq (m : ℕ) (e : ℤ) : (roundHalfAway m e : ℤ) = ⌊(m * 2 ^ e : ℚ) + 1 / 2⌋ := by
  have hden : (0 : ℚ) < (fraction m e).2 := Nat.cast_pos.mpr (fraction_pos m e)
  have hsum : (m * 2 ^ e : ℚ) + 1 / 2 =
      ((2 * (fraction m e).1 + (fraction m e).2 : ℕ) : ℚ) / (2 * (fraction m e).2 : ℕ) := by
    rw [← div_fraction]
    push_cast
    field_simp
  rw [hsum, Rat.floor_natCast_div_natCast]
  rfl

/-! ## Numbers near to short decimals -/

/-- A decimal with `j` places behind the point lies midway between two integers, or is nearer to one of them by its last
digit. -/
theorem floor_add_half_margin (d j : ℕ) :
    ((d : ℚ) / 10 ^ j = ⌊(d : ℚ) / 10 ^ j + 1 / 2⌋ - 1 / 2) ∨
      |(d : ℚ) / 10 ^ j - ⌊(d : ℚ) / 10 ^ j + 1 / 2⌋| + 1 / (2 * 10 ^ j) ≤ 1 / 2 := by
  set n := ⌊(d : ℚ) / 10 ^ j + 1 / 2⌋ with hn
  obtain ⟨hlow, hhigh⟩ := Int.floor_eq_iff.mp hn.symm
  have hpow : (0 : ℚ) < 2 * 10 ^ j := by positivity
  have hscaled : (d : ℚ) / 10 ^ j = 2 * d / (2 * 10 ^ j) := by field_simp
  have hhalf : (1 : ℚ) / 2 = 10 ^ j / (2 * 10 ^ j) := by field_simp
  -- the bounds in units of half of the last digit
  have hlow' : n * (2 * 10 ^ j) ≤ 2 * (d : ℤ) + 10 ^ j := by
    rw [hscaled, hhalf, ← add_div, le_div_iff₀ hpow] at hlow
    exact_mod_cast hlow
  have hhigh' : 2 * (d : ℤ) + 10 ^ j < (n + 1) * (2 * 10 ^ j) := by
    rw [hscaled, hhalf, ← add_div, div_lt_iff₀ hpow] at hhigh
    exact_mod_cast hhigh
  obtain heq | hlt := hlow'.eq_or_lt
  · left
    have heq' : (n : ℚ) * (2 * 10 ^ j) = 2 * d + 10 ^ j := by exact_mod_cast heq
    rw [eq_sub_iff_add_eq, hscaled, hhalf, ← add_div, div_eq_iff hpow.ne', heq']
  · right
    have hlt' : (n : ℚ) * (2 * 10 ^ j) + 1 ≤ 2 * d + 10 ^ j := by exact_mod_cast hlt
    have hhigh'' : (2 : ℚ) * d + 10 ^ j + 1 ≤ (n + 1) * (2 * 10 ^ j) := by exact_mod_cast hhigh'
    rw [← le_sub_iff_add_le, abs_le]
    constructor
    · rw [hscaled, hhalf, ← sub_div, ← neg_div, le_sub_iff_add_le, div_add' _ _ _ hpow.ne',
        div_le_div_iff_of_pos_right hpow]
      linarith
    · rw [hscaled, hhalf, ← sub_div, sub_le_iff_le_add, div_add' _ _ _ hpow.ne',
        div_le_div_iff_of_pos_right hpow]
      linarith

theorem represents_of_half {r : ℚ} {n : ℤ} (hr : 0 ≤ r) (hlt : r < 10 ^ 15) (h : r = n - 1 / 2) :
    FloatFormat.double.Represents r := by
  have hdouble : r * 2 = (2 * n - 1 : ℤ) := by push_cast; rw [h]; ring
  have hm : 0 ≤ 2 * n - 1 ∧ 2 * n - 1 < 2 * 10 ^ 15 := by
    constructor
    · exact_mod_cast hdouble ▸ (by linarith : 0 ≤ r * 2)
    · exact_mod_cast hdouble ▸ (by linarith : r * 2 < 2 * 10 ^ 15)
  obtain ⟨m, hm'⟩ := Int.eq_ofNat_of_zero_le hm.1
  refine ⟨m, -1, ?_, by decide, by decide, ?_⟩
  · have hlimit : 2 * FloatFormat.double.fractionLimit = 2 ^ 53 := by decide
    omega
  · rw [hm', Int.cast_natCast] at hdouble
    rw [← hdouble, zpow_neg_one]
    ring

/-- A number as near to a decimal of fifteen digits as its double is nearest to the same integer. -/
theorem abs_sub_floor_lt {d j : ℕ} {y ε : ℚ} (hd : d < 10 ^ 15) (hε : ε ≤ 1 / 2 ^ 103)
    (hclose : |y - d / 10 ^ j| ≤ d / 10 ^ j / 2 ^ 53 + ε) (hr : ¬ FloatFormat.double.Represents (d / 10 ^ j)) :
    |y - ⌊(d : ℚ) / 10 ^ j + 1 / 2⌋| < 1 / 2 := by
  have hpow : (0 : ℚ) < 10 ^ j := by positivity
  have hnonneg : (0 : ℚ) ≤ d / 10 ^ j := by positivity
  have hd' : (d : ℚ) + 1 ≤ 10 ^ 15 := by exact_mod_cast hd
  obtain hj | hj := Nat.lt_or_ge 15 j
  · -- below a tenth, so that both are nearest to zero
    have hsmall : (d : ℚ) / 10 ^ j < 1 / 10 := by
      have hpow' : (10 : ℚ) ^ 16 ≤ 10 ^ j := pow_le_pow_right₀ (by norm_num) hj
      rw [div_lt_div_iff₀ hpow (by norm_num)]
      linarith
    have hzero : ⌊(d : ℚ) / 10 ^ j + 1 / 2⌋ = 0 :=
      Int.floor_eq_iff.mpr ⟨by push_cast; linarith, by push_cast; linarith⟩
    have := abs_le.mp hclose
    rw [hzero, Int.cast_zero, sub_zero, abs_lt]
    constructor <;> linarith
  · have hlt : (d : ℚ) / 10 ^ j < 10 ^ 15 :=
      (div_le_self (Nat.cast_nonneg d) (one_le_pow₀ (by norm_num))).trans_lt (by linarith)
    obtain hhalf | hmargin := floor_add_half_margin d j
    · exact absurd (represents_of_half hnonneg hlt hhalf) hr
    · have hε' : ε ≤ 1 / 2 ^ 53 / 10 ^ j := by
        refine hε.trans ?_
        rw [div_div]
        refine one_div_le_one_div_of_le (by positivity) ?_
        calc (2 : ℚ) ^ 53 * 10 ^ j ≤ 2 ^ 53 * 10 ^ 15 := by gcongr; norm_num
          _ ≤ 2 ^ 103 := by norm_num
      have herror : (d : ℚ) / 10 ^ j / 2 ^ 53 + ε < 1 / (2 * 10 ^ j) := by
        calc (d : ℚ) / 10 ^ j / 2 ^ 53 + ε ≤ d / 10 ^ j / 2 ^ 53 + 1 / 2 ^ 53 / 10 ^ j := by gcongr
          _ = ((d : ℚ) + 1) / 2 ^ 53 / 10 ^ j := by ring
          _ < (1 : ℚ) / 2 / 10 ^ j := div_lt_div_of_pos_right (by linarith) hpow
          _ = (1 : ℚ) / (2 * 10 ^ j) := by rw [div_div]
      have := abs_sub_le y (d / 10 ^ j) ⌊(d : ℚ) / 10 ^ j + 1 / 2⌋
      linarith

end SqlMapping
