import SqlMapping.Proofs.Number.Overflow
import SqlMapping.Proofs.Number.Texts
import SqlMapping.Proofs.Row.TextForms

/-!
# Finite numbers that are converted

A number is converted to a numeric kind as an integer, as a float or as the text of a decimal.
`converted_finite_iff`: what it becomes is a number again unless it is beyond the floats that it is converted to.
-/

namespace SqlMapping

def Value.number? : Value → Option ℚ
  | .decimal t => (readDecimal (trimBlanks t)).bind DecimalValue.rational?
  | v => v.rational?

def Kind.overflow? : Kind → Option ℚ
  | .single => some singleOverflow
  | .double => some doubleOverflow
  | _ => none

def Kind.Reaches (k : Kind) (q : ℚ) : Prop := ∀ bound ∈ k.overflow?, |q| < bound

theorem Kind.reaches_of_overflow?_eq_none {k : Kind} {q : ℚ} (hk : k.overflow? = none) : k.Reaches q := by
  intro bound hbound
  rw [hk] at hbound
  cases hbound

theorem Kind.reaches_iff {k : Kind} {bound q : ℚ} (hk : k.overflow? = some bound) : k.Reaches q ↔ |q| < bound := by
  simp [Reaches, hk]

/-! ## Texts of numbers -/

theorem isSome_number?_decimal {t : String} (h : IsNumeral t) : (Value.decimal t).number?.isSome = true := by
  obtain ⟨negative, d, e, hread⟩ := exists_readDecimal_of_isNumeral h
  rw [Value.number?, trimBlanks_of_readDecimal hread, hread]
  rfl

theorem FloatValue.isSome_rational? (x : FloatValue) : x.rational?.isSome = x.isFinite := by cases x <;> rfl

namespace Value

variable {v w : Value} {k : Kind} {q : ℚ}

theorem isNumeral_display (hv : v.kind ≠ .decimal)
    (h : (v.integer?.isSome || (v.double?.map Double.isFinite).getD false) = true) : IsNumeral v.display := by
  cases v with
  | int8 n | int16 n | int32 n | int64 n => exact isNumeral_int n.toInt
  | uint8 n => exact (isMagnitude_nat n.toNat).numeral
  | single x =>
    have hfinite : x.toDouble.value.isFinite = true := h
    rw [← FloatValue.isSome_rational?, x.rational?_toDouble, FloatValue.isSome_rational?] at hfinite
    exact isNumeral_finite FloatFormat.single hfinite
  | double x => exact isNumeral_finite FloatFormat.double h
  | decimal t => exact absurd rfl hv
  | _ => cases h

/-! ## Conversion -/

theorem nears_of_double? {x : Double} (hq : v.number? = some q) (hx : v.double? = some x) : x.Nears q := by
  cases v with
  | int8 n | int16 n | int32 n | int64 n | uint8 n =>
    cases hq
    cases hx
    exact Double.nears_ofInt _
  | single y =>
    cases hx
    exact Double.nears_of_rational? (y.rational?_toDouble.trans hq)
  | double y =>
    cases hx
    exact Double.nears_of_rational? hq
  | decimal t =>
    obtain ⟨y, hy, rfl⟩ := Option.map_eq_some_iff.mp hx
    rw [number?, trimBlanks_of_readDecimal hy] at hq
    obtain ⟨negative, d, e, hread, rfl⟩ := exists_of_rational? hq
    obtain rfl := Option.some.inj (hy.symm.trans hread)
    exact Double.nears_ofDecimal negative d e
  | _ => cases hx

theorem isSome_number?_ofInteger? {n : ℤ} (hk : k.isIntegral = true) (h : ofInteger? k n = some w) :
    w.number?.isSome = true := by
  cases k with
  | int64 =>
    cases h
    rfl
  | int8 | int16 | int32 | uint8 =>
    obtain ⟨-, h⟩ := Option.ite_none_right_eq_some.mp h
    cases h
    rfl
  | _ => cases hk

/-- Conversion of a value whose double, if it has one, stands for the number. -/
theorem isSome_number?_toNumeric? (hnears : ∀ x, v.double? = some x → x.Nears q) (hk : k.isNumeric = true)
    (hdecimal : k = .decimal → v.kind ≠ .decimal) (h : v.toNumeric? k = some w) :
    w.number?.isSome = true ↔ k.Reaches q := by
  unfold toNumeric? at h
  split at h
  · rename_i hintegral
    obtain ⟨n, -, hn⟩ := Option.bind_eq_some_iff.mp h
    have hnone : k.overflow? = none := by cases k <;> first | rfl | cases hintegral
    exact iff_of_true (isSome_number?_ofInteger? hintegral hn) (Kind.reaches_of_overflow?_eq_none hnone)
  split at h
  · obtain ⟨x, hx, rfl⟩ := Option.map_eq_some_iff.mp h
    rw [Kind.reaches_iff rfl]
    exact (hnears x hx).single
  · obtain ⟨x, hx, rfl⟩ := Option.map_eq_some_iff.mp h
    rw [Kind.reaches_iff rfl]
    exact (hnears x hx).double
  · have hv := hdecimal rfl
    split at h
    · exact absurd rfl hv
    · obtain ⟨hfinite, h⟩ := Option.ite_none_right_eq_some.mp h
      cases h
      exact iff_of_true (isSome_number?_decimal (isNumeral_display hv hfinite)) (Kind.reaches_of_overflow?_eq_none rfl)
  · cases h

theorem isSome_number?_readNumeric? {t : String} (hq : (string t).number? = some q) (hk : k.isNumeric = true)
    (h : readNumeric? t k = some w) : w.number?.isSome = true ↔ k.Reaches q := by
  have hrational : (readDecimal (trimBlanks t)).bind DecimalValue.rational? = some q := hq
  unfold readNumeric? at h
  dsimp only at h
  obtain ⟨n, hread, rfl⟩ | ⟨negative, d, e, hread, hd, hx, rfl⟩ := numeral_cases hrational
  · rw [hread] at h
    have hnumber : (int64 (Int64.ofInt n)).number? = some (n : ℚ) := by
      rw [number?, rational?, integer?, toInt_ofInt_of_readInt64 hread]
      · rfl
      all_goals simp
    exact isSome_number?_toNumeric? (fun x hx => nears_of_double? hnumber hx) hk (fun _ => by simp [kind]) h
  · rw [hread] at h
    dsimp only at h
    split at h
    · rename_i hdecimal
      obtain ⟨x, -, rfl⟩ := Option.map_eq_some_iff.mp h
      have hsome : (decimal (trimBlanks t)).number?.isSome = true := by
        rw [number?, trimBlanks_of_readDecimal hd, hrational]
        rfl
      exact iff_of_true hsome (Kind.reaches_of_overflow?_eq_none (by rw [hdecimal]; rfl))
    · rename_i hdecimal
      rw [hx, Option.bind_some] at h
      have hnears : ∀ y, (double (Double.ofDecimal negative d e)).double? = some y →
          y.Nears (signed negative (d * 10 ^ e)) := by
        rintro y ⟨⟩
        exact Double.nears_ofDecimal negative d e
      exact isSome_number?_toNumeric? hnears hk (fun hk' => absurd hk' hdecimal) h

theorem reaches_kind (hq : v.number? = some q) : v.kind.Reaches q := by
  cases v with
  | single x => exact (Kind.reaches_iff rfl).mpr (Single.abs_lt_singleOverflow hq)
  | double x =>
    have hfinite : x.value.rational?.isSome = true := Option.isSome_iff_exists.mpr ⟨q, hq⟩
    exact (Kind.reaches_iff rfl).mpr ((Double.nears_of_rational? hq).double.mp hfinite)
  | _ => exact Kind.reaches_of_overflow?_eq_none rfl

end Value

/-- What a number becomes in a numeric kind is a number again, unless a float is asked for that the number is too large
for. -/
theorem converted_finite_iff {v w : Value} {k : Kind} {q : ℚ} (hq : v.number? = some q) (hk : k.isNumeric = true)
    (h : (MemberType.primitive k).convert? v = some w) : w.number?.isSome = true ↔ k.Reaches q := by
  have hnull : v ≠ .null := by rintro rfl; cases hq
  rw [MemberType.convert?_primitive hnull] at h
  by_cases hkind : v.kind = k
  · rw [Value.toKind?, if_pos hkind] at h
    cases h
    rw [hq, ← hkind]
    exact iff_of_true rfl (Value.reaches_kind hq)
  by_cases hv : v.kind.isNumeric = true
  · rw [Value.toKind?, if_neg hkind, hk, hv, Bool.and_self, if_pos rfl] at h
    exact Value.isSome_number?_toNumeric? (fun x hx => Value.nears_of_double? hq hx) hk (fun hk' => hk' ▸ hkind) h
  · cases v with
    | string t =>
      rw [Value.toKind?_string_eq_readNumeric? hk] at h
      exact Value.isSome_number?_readNumeric? hq hk h
    | null | bool _ | bytes _ | timestamp _ | uuid _ => cases hq
    | _ => exact absurd rfl hv

theorem power_below_overflow_finite :
    (Value.double ⟨0x47e0000000000000⟩).number? = some (2 ^ 127) ∧ Kind.single.isNumeric = true ∧
      (MemberType.primitive .single).convert? (.double ⟨0x47e0000000000000⟩) = some (.single ⟨0x7f000000⟩) ∧
      (Value.single ⟨0x7f000000⟩).number?.isSome = true := by
  have hvalue : (⟨0x47e0000000000000⟩ : Double).value = .finite false (2 ^ 52) 75 := by decide
  have hq : (Value.double ⟨0x47e0000000000000⟩).number? = some (2 ^ 127) := by
    simp only [Value.number?, Value.rational?, hvalue, FloatValue.rational?, signed]
    norm_num
  have hw : (MemberType.primitive .single).convert? (.double ⟨0x47e0000000000000⟩) = some (.single ⟨0x7f000000⟩) := by
    decide
  refine ⟨hq, rfl, hw, (converted_finite_iff hq rfl hw).mpr ((Kind.reaches_iff rfl).mpr ?_)⟩
  norm_num [singleOverflow]

/-- The next power of two becomes infinite as a single, and a decimal of 501 digits as a double. -/
theorem power_becomes_infinite :
    ((Value.double ⟨0x47f0000000000000⟩).number? = some (2 ^ 128) ∧
      (MemberType.primitive .single).convert? (.double ⟨0x47f0000000000000⟩) = some (.single ⟨0x7f800000⟩) ∧
      (Value.single ⟨0x7f800000⟩).number? = none) ∧
    (Value.decimal "1e500").number? = some (10 ^ 500) ∧
      (MemberType.primitive .double).convert? (.decimal "1e500") = some (.double ⟨0x7ff0000000000000⟩) ∧
      (Value.double ⟨0x7ff0000000000000⟩).number? = none := by
  refine ⟨⟨?_, by decide, ?_⟩, ?_, by decide, ?_⟩
  · have hvalue : (⟨0x47f0000000000000⟩ : Double).value = .finite false (2 ^ 52) 76 := by decide
    simp only [Value.number?, Value.rational?, hvalue, FloatValue.rational?, signed]
    norm_num
  · have hvalue : (⟨0x7f800000⟩ : Single).value = .infinite false := by decide
    simp only [Value.number?, Value.rational?, hvalue, FloatValue.rational?]
  · have hread : readDecimal (trimBlanks "1e500") = some (.number false 1 500) := by decide
    simp only [Value.number?, hread, Option.bind_some, DecimalValue.rational?, signed, Nat.cast_one, one_mul]
    rfl
  · have hvalue : (⟨0x7ff0000000000000⟩ : Double).value = .infinite false := by decide
    simp only [Value.number?, Value.rational?, hvalue, FloatValue.rational?]

end SqlMapping
