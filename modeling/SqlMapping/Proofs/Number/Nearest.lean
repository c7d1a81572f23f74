import SqlMapping.Number.Float
import Mathlib.Data.Rat.Floor
import Mathlib.Algebra.Order.Field.Power
import Mathlib.Tactic.FieldSimp
import Mathlib.Tactic.Positivity
import Mathlib.Tactic.Linarith
import Mathlib.Tactic.Ring
import Mathlib.Tactic.NormNum

/-!
# The nearest number of a format

What patterns denote, as rationals. The pattern that `FloatFormat.nearest` gives denotes a number that is off by at most
a half of its last digit (`FloatFormat.rational?_nearest`), and the very number if the format has it
(`FloatFormat.rational?_nearest_of_represents`).
-/

namespace SqlMapping

/-! ## Scaling and rounding -/

theorem div_scaleByTwo (num den : ℕ) (q : ℤ) :
    ((scaleByTwo num den q).1 : ℚ) / (scaleByTwo num den q).2 = num / den / 2 ^ q := by
  unfold scaleByTwo
  split
  · rename_i hq
    obtain ⟨n, rfl⟩ := Int.eq_ofNat_of_zero_le hq
    simp [div_div]
  · rename_i hq
    obtain ⟨n, hn⟩ := Int.eq_ofNat_of_zero_le (a := -q) (by omega)
    obtain rfl : q = -n := by omega
    simp [div_mul_eq_mul_div]

theorem scaleByTwo_pos (num : ℕ) {den : ℕ} (hden : 0 < den) (q : ℤ) : 0 < (scaleByTwo num den q).2 := by
  unfold scaleByTwo
  split
  · exact Nat.mul_pos hden (Nat.pow_pos (by decide))
  · exact hden

theorem abs_nearestEven_sub (a : ℕ) {b : ℕ} (hb : 0 < b) : |(nearestEven a b : ℚ) - a / b| ≤ 1 / 2 := by
  have hb' : (0 : ℚ) < b := Nat.cast_pos.mpr hb
  have hrest : (a : ℚ) / b - (a / b : ℕ) = (a % b : ℕ) / b := by
    have hdiv : (b : ℚ) * (a / b : ℕ) + (a % b : ℕ) = a := by exact_mod_cast Nat.div_add_mod a b
    rw [← hdiv]
    field_simp
    ring
  have hlt : a % b < b := Nat.mod_lt a hb
  -- a distance of at most a half, in whole numbers
  have hbelow : 2 * (a % b) ≤ b → |((a / b : ℕ) : ℚ) - a / b| ≤ 1 / 2 := by
    intro h
    have h' : (2 : ℚ) * (a % b : ℕ) ≤ b := by exact_mod_cast h
    rw [abs_sub_comm, hrest, abs_of_nonneg (by positivity), div_le_div_iff₀ hb' two_pos]
    linarith
  have habove : b ≤ 2 * (a % b) → |((a / b + 1 : ℕ) : ℚ) - a / b| ≤ 1 / 2 := by
    intro h
    have h' : (b : ℚ) ≤ 2 * (a % b : ℕ) := by exact_mod_cast h
    have hle : ((a % b : ℕ) : ℚ) ≤ b := by exact_mod_cast hlt.le
    have heq : ((a / b + 1 : ℕ) : ℚ) - a / b = (b - (a % b : ℕ)) / b := by
      rw [sub_div, div_self hb'.ne', ← hrest]
      push_cast
      ring
    rw [heq, abs_of_nonneg (div_nonneg (by linarith) hb'.le), div_le_div_iff₀ hb' two_pos]
    linarith
  unfold nearestEven
  dsimp only
  split
  · exact hbelow (by omega)
  · split
    · exact habove (by omega)
    · split
      · exact hbelow (by omega)
      · exact habove (by omega)

/-- Halfway between two naturals, the even one is taken. -/
theorem even_nearestEven {a b : ℕ} (hb : 0 < b) (h : 2 * a = (2 * nearestEven a b + 1) * b) :
    Even (nearestEven a b) := by
  have hdiv := Nat.div_add_mod a b
  have hlt := Nat.mod_lt a hb
  have hcomm := Nat.mul_comm b (a / b)
  rw [Nat.even_iff]
  unfold nearestEven at h ⊢
  dsimp only at h ⊢
  generalize a / b = n at *
  split at h
  · grind
  · split at h
    · grind
    · split at h <;> grind

theorem eq_of_abs_sub_le {n k : ℕ} (h : |(n : ℚ) - k| ≤ 1 / 2) : n = k := by
  have hlt : |((n : ℤ) - k : ℤ)| < 1 := by
    have : |(((n : ℤ) - k : ℤ) : ℚ)| < 1 := by push_cast; linarith
    exact_mod_cast this
  have := abs_lt.mp hlt
  omega

theorem two_zpow_log2_le {n : ℕ} (hn : 0 < n) : (2 : ℚ) ^ (n.log2 : ℤ) ≤ n ∧ (n : ℚ) < 2 ^ (n.log2 + 1 : ℤ) := by
  constructor
  · rw [zpow_natCast]
    exact_mod_cast Nat.log2_self_le hn.ne'
  · rw [show ((n.log2 : ℤ) + 1) = ((n.log2 + 1 : ℕ) : ℤ) from rfl, zpow_natCast]
    exact_mod_cast Nat.lt_log2_self

theorem binaryOrder_bounds {num den : ℕ} (hnum : 0 < num) (hden : 0 < den) :
    (2 : ℚ) ^ binaryOrder num den ≤ num / den ∧ (num : ℚ) / den < 2 ^ (binaryOrder num den + 1) := by
  have hden' : (0 : ℚ) < den := Nat.cast_pos.mpr hden
  obtain ⟨hnumLow, hnumHigh⟩ := two_zpow_log2_le hnum
  obtain ⟨hdenLow, hdenHigh⟩ := two_zpow_log2_le hden
  set e : ℤ := (num.log2 : ℤ) - den.log2 with he
  have hpow : (0 : ℚ) < 2 ^ e := by positivity
  have hb := scaleByTwo_pos num hden e
  have hcmp : (scaleByTwo num den e).1 < (scaleByTwo num den e).2 ↔ (num : ℚ) / den < 2 ^ e := by
    rw [← @Nat.cast_lt ℚ, ← div_lt_one (Nat.cast_pos.mpr hb), div_scaleByTwo, div_lt_one hpow]
  have hhigh : (num : ℚ) / den < 2 ^ (e + 1) := by
    rw [div_lt_iff₀ hden']
    calc (num : ℚ) < 2 ^ (num.log2 + 1 : ℤ) := hnumHigh
      _ = 2 ^ (e + 1) * 2 ^ (den.log2 : ℤ) := by rw [← zpow_add₀ two_ne_zero]; congr 1; omega
      _ ≤ 2 ^ (e + 1) * den := by gcongr
  have hlow : (2 : ℚ) ^ (e - 1) ≤ num / den := by
    rw [le_div_iff₀ hden']
    calc (2 : ℚ) ^ (e - 1) * den ≤ 2 ^ (e - 1) * 2 ^ (den.log2 + 1 : ℤ) := by gcongr
      _ = 2 ^ (num.log2 : ℤ) := by rw [← zpow_add₀ two_ne_zero]; congr 1; omega
      _ ≤ num := hnumLow
  unfold binaryOrder
  dsimp only
  rw [← he]
  split
  · rename_i hlt
    exact ⟨hlow, by rw [sub_add_cancel]; exact hcmp.mp hlt⟩
  · rename_i hlt
    exact ⟨not_lt.mp (mt hcmp.mpr hlt), hhigh⟩

/-! ## What patterns denote -/

def signed (negative : Bool) (x : ℚ) : ℚ := if negative then -x else x

theorem abs_signed (negative : Bool) (x : ℚ) : |signed negative x| = |x| := by
  cases negative <;> simp [signed]

def FloatValue.rational? : FloatValue → Option ℚ
  | .finite negative m e => some (signed negative (m * 2 ^ e))
  | .infinite _ | .notANumber => none

namespace FloatFormat

variable {f : FloatFormat}

theorem fractionLimit_pos : 0 < f.fractionLimit := Nat.pow_pos (by decide)

theorem decode_encode {negative : Bool} {p : ℕ} (hp : p < f.signBit) :
    f.decode (f.encode negative p) = f.decodeMagnitude negative p := by
  unfold decode encode
  cases negative with
  | false => simp [Nat.mod_eq_of_lt hp, Nat.not_le.mpr hp]
  | true => simp [Nat.mod_eq_of_lt hp]

theorem decodeMagnitude_of_code {negative : Bool} {code fraction : ℕ} (hcode : code ≠ f.specialCode)
    (hfraction : fraction < f.fractionLimit) :
    f.decodeMagnitude negative (code * f.fractionLimit + fraction) =
      if code = 0 then .finite negative fraction f.leastExponent
      else .finite negative (f.fractionLimit + fraction) (f.leastExponent + (code - 1 : ℕ)) := by
  have hdiv : (code * f.fractionLimit + fraction) / f.fractionLimit = code := by
    rw [Nat.mul_comm, Nat.mul_add_div f.fractionLimit_pos, Nat.div_eq_of_lt hfraction, Nat.add_zero]
  have hmod : (code * f.fractionLimit + fraction) % f.fractionLimit = fraction := by
    rw [Nat.mul_comm, Nat.mul_add_mod, Nat.mod_eq_of_lt hfraction]
  unfold decodeMagnitude
  simp only [hdiv, hmod, if_neg hcode]

/-- A pattern holds the steps from the least exponent, then the significand, whose leading digit counts as a
step of its own. -/
theorem rational?_decodeMagnitude {negative : Bool} {steps s : ℕ} (hs : s ≤ 2 * f.fractionLimit)
    (hnormal : 0 < steps → f.fractionLimit ≤ s) (hfinite : steps * f.fractionLimit + s < f.infinity) :
    (f.decodeMagnitude negative (steps * f.fractionLimit + s)).rational? =
      some (signed negative (s * 2 ^ (f.leastExponent + steps))) := by
  have hlimit := f.fractionLimit_pos
  have hcode : ∀ code fraction, steps * f.fractionLimit + s = code * f.fractionLimit + fraction →
      code ≠ f.specialCode := by
    rintro code fraction heq rfl
    rw [heq, infinity] at hfinite
    omega
  obtain hlt | hge := Nat.lt_or_ge s f.fractionLimit
  · have hsteps : steps = 0 := by
      by_contra h
      exact absurd (hnormal (Nat.pos_of_ne_zero h)) (Nat.not_le.mpr hlt)
    rw [decodeMagnitude_of_code (hcode steps s rfl) hlt, if_pos hsteps, hsteps]
    simp [FloatValue.rational?]
  obtain hlt | hge' := Nat.lt_or_ge s (2 * f.fractionLimit)
  · have heq : steps * f.fractionLimit + s = (steps + 1) * f.fractionLimit + (s - f.fractionLimit) := by
      rw [Nat.add_mul]
      omega
    rw [heq, decodeMagnitude_of_code (hcode _ _ heq) (by omega), if_neg (by omega), Nat.add_sub_cancel,
      Nat.add_sub_cancel' hge]
    rfl
  · -- a significand that was rounded up to the next power of two
    obtain rfl : s = 2 * f.fractionLimit := Nat.le_antisymm hs hge'
    have heq : steps * f.fractionLimit + 2 * f.fractionLimit = (steps + 2) * f.fractionLimit + 0 := by
      rw [Nat.add_mul, Nat.add_zero]
    have hpow : (2 : ℚ) ^ (f.leastExponent + ((steps + 1 : ℕ) : ℤ)) = 2 ^ (f.leastExponent + (steps : ℤ)) * 2 := by
      rw [← zpow_add_one₀ two_ne_zero]
      congr 1
      omega
    rw [heq, decodeMagnitude_of_code (hcode _ _ heq) hlimit, if_neg (by omega), FloatValue.rational?]
    rw [show steps + 2 - 1 = steps + 1 from rfl, hpow]
    congr 2
    push_cast
    ring

/-! ## The nearest number -/

theorem nearest_zero (den : ℕ) : f.nearest 0 den = 0 := rfl

/-- The number nearest to a fraction, before it is found to be too large: its significand and the exponent of its
last digit. -/
structure IsNearest (f : FloatFormat) (num den : ℕ) (s : ℕ) (steps : ℕ) : Prop where
  error : |(s : ℚ) * 2 ^ (f.leastExponent + steps) - num / den| ≤ 2 ^ (f.leastExponent + steps) / 2
  upper : s ≤ 2 * f.fractionLimit
  normal : 0 < steps → f.fractionLimit ≤ s ∧ (2 : ℚ) ^ (f.leastExponent + steps + (f.precision - 1 : ℕ)) ≤ num / den
  below : (num : ℚ) / den < 2 ^ (f.leastExponent + steps + (f.precision - 1 : ℕ) + 1)
  pattern : f.nearest num den = min (steps * f.fractionLimit + s) f.infinity

/-- There is a nearest number; of two equally near ones it has the even significand. -/
theorem exists_isNearest_even {num den : ℕ} (hnum : 0 < num) (hden : 0 < den) :
    ∃ s steps, f.IsNearest num den s steps ∧
      ((num : ℚ) / den = (s + 1 / 2) * 2 ^ (f.leastExponent + steps) → Even s) := by
  obtain ⟨hlow, hhigh⟩ := binaryOrder_bounds hnum hden
  set q := max (binaryOrder num den - (f.precision - 1 : ℕ)) f.leastExponent with hq
  obtain ⟨steps, hsteps⟩ := Int.eq_ofNat_of_zero_le (a := q - f.leastExponent) (by omega)
  have hexponent : f.leastExponent + steps = q := by omega
  have hpow : (0 : ℚ) < 2 ^ q := by positivity
  have hround := abs_nearestEven_sub (scaleByTwo num den q).1 (scaleByTwo_pos num hden q)
  set s := nearestEven (scaleByTwo num den q).1 (scaleByTwo num den q).2 with hs
  rw [div_scaleByTwo] at hround
  obtain ⟨hround₁, hround₂⟩ := abs_le.mp hround
  have hlimit : (f.fractionLimit : ℚ) = 2 ^ ((f.precision - 1 : ℕ) : ℤ) := by simp [fractionLimit]
  have hbelow : (num : ℚ) / den < 2 ^ (q + (f.precision - 1 : ℕ) + 1) :=
    hhigh.trans_le (zpow_le_zpow_right₀ one_le_two (by omega))
  refine ⟨s, steps, ⟨?_, ?_, fun hpos => ?_, ?_, ?_⟩, fun htie => ?_⟩
  · rw [hexponent]
    calc |(s : ℚ) * 2 ^ q - num / den| = |((s : ℚ) - num / den / 2 ^ q) * 2 ^ q| := by
          rw [sub_mul, div_mul_cancel₀ _ hpow.ne']
      _ = |(s : ℚ) - num / den / 2 ^ q| * 2 ^ q := by rw [abs_mul, abs_of_pos hpow]
      _ ≤ 1 / 2 * 2 ^ q := by gcongr
      _ = 2 ^ q / 2 := by ring
  · have hscaled : (num : ℚ) / den / 2 ^ q < 2 * f.fractionLimit := by
      rw [div_lt_iff₀ hpow, hlimit, ← zpow_one_add₀ two_ne_zero, ← zpow_add₀ two_ne_zero]
      exact hbelow.trans_eq (by congr 1; omega)
    have : (s : ℚ) < (2 * f.fractionLimit + 1 : ℕ) := by push_cast; linarith
    exact Nat.le_of_lt_succ (by exact_mod_cast this)
  · have horder : q + (f.precision - 1 : ℕ) = binaryOrder num den := by omega
    rw [hexponent, horder]
    refine ⟨?_, hlow⟩
    have hscaled : (f.fractionLimit : ℚ) ≤ num / den / 2 ^ q := by
      rw [le_div_iff₀ hpow, hlimit, ← zpow_add₀ two_ne_zero, add_comm, horder]
      exact hlow
    have : (f.fractionLimit : ℚ) < (s + 1 : ℕ) := by push_cast; linarith
    exact Nat.le_of_lt_succ (by exact_mod_cast this)
  · rw [hexponent]
    exact hbelow
  · unfold nearest
    rw [if_neg hnum.ne']
    dsimp only
    rw [← hq, ← hs, hsteps, Int.toNat_natCast]
  · have hb := scaleByTwo_pos num hden q
    have hb' : (0 : ℚ) < (scaleByTwo num den q).2 := Nat.cast_pos.mpr hb
    have hhalf : ((scaleByTwo num den q).1 : ℚ) / (scaleByTwo num den q).2 = s + 1 / 2 := by
      rw [div_scaleByTwo, htie, hexponent, mul_div_cancel_right₀ _ hpow.ne']
    refine even_nearestEven hb ?_
    rw [← hs, ← @Nat.cast_inj ℚ]
    rw [div_eq_iff hb'.ne'] at hhalf
    push_cast
    rw [hhalf]
    ring

theorem exists_isNearest {num den : ℕ} (hnum : 0 < num) (hden : 0 < den) :
    ∃ s steps, f.IsNearest num den s steps :=
  let ⟨s, steps, h, _⟩ := exists_isNearest_even hnum hden
  ⟨s, steps, h⟩

/-- A number of the format is the nearest to itself. -/
theorem IsNearest.exact {num den s steps : ℕ} (h : f.IsNearest num den s steps) {m : ℕ} {e : ℤ}
    (hm : m < 2 * f.fractionLimit) (he : f.leastExponent ≤ e) (heq : (num : ℚ) / den = m * 2 ^ e) :
    f.leastExponent + steps ≤ e ∧ (s : ℚ) * 2 ^ (f.leastExponent + steps) = num / den := by
  have hlimit : (f.fractionLimit : ℚ) = 2 ^ ((f.precision - 1 : ℕ) : ℤ) := by simp [fractionLimit]
  have hle : f.leastExponent + steps ≤ e := by
    obtain rfl | hpos := Nat.eq_zero_or_pos steps
    · omega
    have hlt : (2 : ℚ) ^ (f.leastExponent + steps + (f.precision - 1 : ℕ)) < 2 ^ (e + (f.precision - 1 : ℕ) + 1) := by
      calc (2 : ℚ) ^ (f.leastExponent + steps + (f.precision - 1 : ℕ)) ≤ m * 2 ^ e := heq ▸ (h.normal hpos).2
        _ < (2 * f.fractionLimit : ℕ) * 2 ^ e := by gcongr
        _ = 2 ^ (e + (f.precision - 1 : ℕ) + 1) := by
          rw [zpow_add_one₀ two_ne_zero, zpow_add₀ two_ne_zero, ← hlimit]
          push_cast
          ring
    have := (zpow_lt_zpow_iff_right₀ one_lt_two).mp hlt
    omega
  refine ⟨hle, ?_⟩
  obtain ⟨n, hn⟩ := Int.eq_ofNat_of_zero_le (a := e - (f.leastExponent + steps)) (by omega)
  have hpow : (0 : ℚ) < 2 ^ (f.leastExponent + (steps : ℤ)) := by positivity
  have hwhole : (num : ℚ) / den = (m * 2 ^ n : ℕ) * 2 ^ (f.leastExponent + (steps : ℤ)) := by
    rw [heq, show e = n + (f.leastExponent + steps) by omega, zpow_add₀ two_ne_zero, zpow_natCast]
    push_cast
    ring
  have herror := h.error
  rw [hwhole, ← sub_mul, abs_mul, abs_of_pos hpow] at herror
  have hs : s = m * 2 ^ n := eq_of_abs_sub_le (le_of_mul_le_mul_right (by linarith) hpow)
  rw [hwhole, hs]

theorem decodeMagnitude_infinity (negative : Bool) : f.decodeMagnitude negative f.infinity = .infinite negative := by
  unfold decodeMagnitude infinity
  simp only [Nat.mul_div_cancel _ f.fractionLimit_pos, Nat.mul_mod_left, if_pos]

theorem rational?_zero (hf : 0 < f.specialCode) (negative : Bool) :
    (f.decodeMagnitude negative 0).rational? = some (signed negative 0) := by
  have h := @rational?_decodeMagnitude f negative 0 0 (Nat.zero_le _) (fun h => absurd h (lt_irrefl 0))
    (by simpa [infinity, hf] using f.fractionLimit_pos)
  simpa using h

/-- The number nearest to a fraction is off by at most a half of its last digit; only a fraction that is beyond the
format is taken to be infinite. -/
theorem rational?_nearest (hf : 2 < f.specialCode) (negative : Bool) (num : ℕ) {den : ℕ} (hden : 0 < den) :
    (∃ y, (f.decodeMagnitude negative (f.nearest num den)).rational? = some (signed negative y) ∧
        |y - num / den| ≤ num / den / (2 * f.fractionLimit) + 2 ^ f.leastExponent / 2) ∨
      f.decodeMagnitude negative (f.nearest num den) = .infinite negative ∧
        (2 : ℚ) ^ (f.leastExponent + (f.specialCode - 2 : ℕ) + (f.precision - 1 : ℕ)) ≤ num / den := by
  have hlimit : (0 : ℚ) < f.fractionLimit := Nat.cast_pos.mpr f.fractionLimit_pos
  have hleast : (0 : ℚ) < 2 ^ f.leastExponent := by positivity
  obtain rfl | hnum := Nat.eq_zero_or_pos num
  · refine .inl ⟨0, rational?_zero (by omega) negative, ?_⟩
    simpa using (half_pos hleast).le
  obtain ⟨s, steps, h⟩ := exists_isNearest (f := f) hnum hden
  have hratio : (0 : ℚ) ≤ num / den := by positivity
  rw [h.pattern]
  obtain hfinite | hinfinite := Nat.lt_or_ge (steps * f.fractionLimit + s) f.infinity
  · rw [Nat.min_eq_left hfinite.le]
    refine .inl ⟨_, rational?_decodeMagnitude h.upper (fun hpos => (h.normal hpos).1) hfinite, ?_⟩
    refine h.error.trans ?_
    obtain rfl | hpos := Nat.eq_zero_or_pos steps
    · rw [Nat.cast_zero, add_zero]
      exact le_add_of_nonneg_left (by positivity)
    · have hbelow : (2 : ℚ) ^ (f.leastExponent + (steps : ℤ)) * f.fractionLimit ≤ num / den := by
        refine le_of_eq_of_le ?_ (h.normal hpos).2
        rw [zpow_add₀ two_ne_zero (_ + _)]
        simp [fractionLimit]
      have : (2 : ℚ) ^ (f.leastExponent + (steps : ℤ)) / 2 ≤ num / den / (2 * f.fractionLimit) := by
        rw [le_div_iff₀ (by positivity)]
        linarith
      linarith
  · rw [Nat.min_eq_right hinfinite]
    refine .inr ⟨decodeMagnitude_infinity negative, ?_⟩
    have hsteps : f.specialCode - 2 ≤ steps := by
      by_contra hlt
      have hmul : (steps + 3) * f.fractionLimit ≤ f.specialCode * f.fractionLimit :=
        Nat.mul_le_mul_right _ (by omega)
      have hupper := h.upper
      rw [infinity] at hinfinite
      have := f.fractionLimit_pos
      rw [Nat.add_mul] at hmul
      omega
    exact (zpow_le_zpow_right₀ one_le_two (by omega)).trans (h.normal (by omega)).2

def Represents (f : FloatFormat) (r : ℚ) : Prop :=
  ∃ (m : ℕ) (e : ℤ), m < 2 * f.fractionLimit ∧ f.leastExponent ≤ e ∧
    e ≤ f.leastExponent + (f.specialCode - 2 : ℕ) ∧ r = m * 2 ^ e

theorem represents_of_decodeMagnitude {negative negative' : Bool} {p m : ℕ} {e : ℤ} (hp : p < f.signBit)
    (h : f.decodeMagnitude negative p = .finite negative' m e) : f.Represents (m * 2 ^ e) := by
  have hlimit := f.fractionLimit_pos
  have hfraction := Nat.mod_lt p hlimit
  have hcode : p / f.fractionLimit < f.specialCode + 1 := Nat.div_lt_of_lt_mul (by rwa [Nat.mul_comm])
  unfold decodeMagnitude at h
  dsimp only at h
  split at h
  · split at h <;> cases h
  · split at h
    · -- subnormal, with the least exponent
      cases h
      exact ⟨_, _, by omega, le_rfl, by omega, rfl⟩
    · cases h
      exact ⟨_, _, by omega, by omega, by omega, rfl⟩

theorem rational?_nearest_of_represents {negative : Bool} {num den : ℕ} (hf : 1 < f.specialCode) (hden : 0 < den)
    (hr : f.Represents (num / den)) :
    (f.decodeMagnitude negative (f.nearest num den)).rational? = some (signed negative (num / den)) := by
  obtain ⟨m, e, hm, hleast, hgreatest, heq⟩ := hr
  obtain rfl | hnum := Nat.eq_zero_or_pos num
  · simpa [nearest_zero] using rational?_zero (f := f) (by omega) negative
  obtain ⟨s, steps, h⟩ := exists_isNearest (f := f) hnum hden
  obtain ⟨hsteps, hvalue⟩ := h.exact hm hleast heq
  have hfinite : steps * f.fractionLimit + s < f.infinity := by
    have hlimit := f.fractionLimit_pos
    have hupper := h.upper
    rw [infinity]
    obtain hlt | hge := Nat.lt_or_ge steps (f.specialCode - 2)
    · have hmul : (steps + 3) * f.fractionLimit ≤ f.specialCode * f.fractionLimit :=
        Nat.mul_le_mul_right _ (by omega)
      rw [Nat.add_mul] at hmul
      omega
    · -- in the topmost steps the significand is the one that the number is spelled with
      obtain rfl : e = f.leastExponent + steps := by omega
      rw [heq] at hvalue
      have hs : (s : ℚ) = m := mul_right_cancel₀ (by positivity) hvalue
      have hmul : (steps + 2) * f.fractionLimit ≤ f.specialCode * f.fractionLimit :=
        Nat.mul_le_mul_right _ (by omega)
      rw [Nat.add_mul] at hmul
      have : s = m := by exact_mod_cast hs
      omega
  rw [h.pattern, Nat.min_eq_left hfinite.le,
    rational?_decodeMagnitude h.upper (fun hpos => (h.normal hpos).1) hfinite, hvalue]

theorem nearest_le_infinity (num den : ℕ) : f.nearest num den ≤ f.infinity := by
  unfold nearest
  split
  · exact Nat.zero_le _
  · exact Nat.min_le_right _ _

theorem nearest_lt_signBit (num den : ℕ) : f.nearest num den < f.signBit := by
  have hinfinity : f.infinity < f.signBit := Nat.mul_lt_mul_of_pos_right (Nat.lt_succ_self _) f.fractionLimit_pos
  exact (f.nearest_le_infinity num den).trans_lt hinfinity

/-- A word that has the sign bit on top holds the nearest number. -/
theorem decode_encode_nearest {size : ℕ} (hsize : size = 2 * f.signBit) (negative : Bool) (num den : ℕ) :
    f.decode (f.encode negative (f.nearest num den) % size) = f.decodeMagnitude negative (f.nearest num den) := by
  have hp := f.nearest_lt_signBit num den
  have hlt : f.encode negative (f.nearest num den) < size := by
    unfold encode
    split <;> omega
  rw [Nat.mod_eq_of_lt hlt, decode_encode hp]

end FloatFormat

/-! ## Doubles -/

theorem FloatValue.div_fraction (m : ℕ) (e : ℤ) :
    ((fraction m e).1 : ℚ) / (fraction m e).2 = m * 2 ^ e := by
  unfold fraction
  split
  · rename_i he
    obtain ⟨n, rfl⟩ := Int.eq_ofNat_of_zero_le he
    simp
  · rename_i he
    obtain ⟨n, hn⟩ := Int.eq_ofNat_of_zero_le (a := -e) (by omega)
    obtain rfl : e = -n := by omega
    simp [div_eq_mul_inv]

theorem FloatValue.fraction_pos (m : ℕ) (e : ℤ) : 0 < (fraction m e).2 := by
  unfold fraction
  split
  · exact Nat.one_pos
  · exact Nat.pow_pos (by decide)

namespace Double

theorem value_ofFraction (negative : Bool) (num den : ℕ) :
    (ofFraction negative num den).value =
      FloatFormat.double.decodeMagnitude negative (FloatFormat.double.nearest num den) := by
  rw [value, ofFraction, UInt64.toNat_ofNat']
  exact FloatFormat.decode_encode_nearest (by decide) negative num den

theorem value_ofValue (negative : Bool) (m : ℕ) (e : ℤ) :
    ofValue (.finite negative m e) =
      ofFraction negative (FloatValue.fraction m e).1 (FloatValue.fraction m e).2 := rfl

theorem represents_of_value {x : Double} {q : ℚ} (h : x.value.rational? = some q) :
    FloatFormat.double.Represents |q| := by
  unfold value FloatFormat.decode at h
  generalize hx : FloatFormat.double.decodeMagnitude _ _ = v at h
  cases v with
  | notANumber | infinite _ => cases h
  | finite negative m e =>
    cases h
    have hr := FloatFormat.represents_of_decodeMagnitude (Nat.mod_lt _ (by decide)) hx
    rwa [abs_signed, abs_of_nonneg (by positivity)]

theorem rational?_ofFraction (negative : Bool) (num : ℕ) {den : ℕ} (hden : 0 < den) :
    (∃ y, (ofFraction negative num den).value.rational? = some (signed negative y) ∧
        |y - num / den| ≤ num / den / 2 ^ 53 + 1 / 2 ^ 1075) ∨
      (ofFraction negative num den).value = .infinite negative ∧ (2 : ℚ) ^ 1023 ≤ num / den := by
  have hlimit : (2 : ℚ) * FloatFormat.double.fractionLimit = 2 ^ 53 := by
    norm_num [FloatFormat.fractionLimit, FloatFormat.double]
  have hleast : (2 : ℚ) ^ FloatFormat.double.leastExponent / 2 = 1 / 2 ^ 1075 := by
    have hpow : (2 : ℚ) ^ FloatFormat.double.leastExponent = 1 / 2 ^ 1074 := by
      rw [one_div, ← zpow_natCast, ← zpow_neg]
      rfl
    rw [hpow, div_div, ← pow_succ]
  have hgreatest : FloatFormat.double.leastExponent + (FloatFormat.double.specialCode - 2 : ℕ) +
      (FloatFormat.double.precision - 1 : ℕ) = (1023 : ℕ) := by decide
  have h := FloatFormat.double.rational?_nearest (by decide) negative num hden
  rwa [hlimit, hleast, hgreatest, zpow_natCast, ← value_ofFraction] at h

theorem rational?_ofFraction_of_represents {negative : Bool} {num den : ℕ} (hden : 0 < den)
    (hr : FloatFormat.double.Represents (num / den)) :
    (ofFraction negative num den).value.rational? = some (signed negative (num / den)) := by
  rw [value_ofFraction]
  exact FloatFormat.double.rational?_nearest_of_represents (by decide) hden hr

end Double

/-- Every single is a double. -/
theorem Single.rational?_toDouble (x : Single) : x.toDouble.value.rational? = x.value.rational? := by
  unfold toDouble
  cases hx : x.value with
  | notANumber => decide
  | infinite negative => cases negative <;> decide
  | finite negative m e =>
    obtain ⟨m', e', hm, hleast, hgreatest, heq⟩ :=
      FloatFormat.represents_of_decodeMagnitude (Nat.mod_lt _ (by decide)) hx
    have hr : FloatFormat.double.Represents (m * 2 ^ e) := by
      have hlimit : FloatFormat.single.fractionLimit ≤ FloatFormat.double.fractionLimit := by decide
      refine ⟨m', e', by omega, le_trans (by decide) hleast, le_trans hgreatest (by decide), heq⟩
    rw [← FloatValue.div_fraction] at hr
    rw [Double.value_ofValue, Double.rational?_ofFraction_of_represents (FloatValue.fraction_pos m e) hr,
      FloatValue.div_fraction]
    rfl

end SqlMapping
