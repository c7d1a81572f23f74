import SqlMapping.Proofs.Row.Conversion

/-!
# Converted values conform

What a conversion gives has the kind that was asked for, whichever way it took. So a converted value conforms
to the type of the member (`converted_value_conforms`), and converting it again changes nothing.
-/

namespace SqlMapping

/-! ## Kinds of converted values -/

namespace Kind

theorem ne_null_of_isIntegral {k : Kind} (h : k.isIntegral = true) : k ≠ .null := by
  rintro rfl
  cases h

theorem kind_zero_of_isIntegral {k : Kind} (h : k.isIntegral = true) : k.zero.kind = k := by
  cases k <;> first | rfl | cases h

end Kind

namespace Value

variable {v w : Value} {k : Kind}

theorem kind_ofInteger? {n : Int} (hk : k.isIntegral = true) (h : ofInteger? k n = some w) : w.kind = k := by
  cases k with
  | int8 | int16 | int32 | uint8 =>
    simp only [ofInteger?] at h
    split at h
    · cases h; rfl
    · cases h
  | int64 => cases h; rfl
  | _ => cases hk

theorem kind_toNumeric? (h : v.toNumeric? k = some w) : w.kind = k := by
  unfold toNumeric? at h
  split at h
  · rename_i hk
    obtain ⟨n, _, hn⟩ := Option.bind_eq_some_iff.mp h
    exact kind_ofInteger? hk hn
  · split at h
    · obtain ⟨x, _, rfl⟩ := Option.map_eq_some_iff.mp h; rfl
    · obtain ⟨x, _, rfl⟩ := Option.map_eq_some_iff.mp h; rfl
    · split at h
      · cases h; rfl
      · split at h
        · cases h; rfl
        · cases h
    · cases h

theorem kind_readNumeric? {text : String} (h : readNumeric? text k = some w) : w.kind = k := by
  simp only [readNumeric?] at h
  split at h
  · exact kind_toNumeric? h
  · split at h
    · rename_i hk
      obtain ⟨x, _, rfl⟩ := Option.map_eq_some_iff.mp h
      exact hk.symm
    · obtain ⟨x, _, hx⟩ := Option.bind_eq_some_iff.mp h
      exact kind_toNumeric? hx

theorem kind_convertAcross? (h : v.convertAcross? k = some w) : w.kind = k := by
  unfold convertAcross? at h
  -- by the kind asked for: a string, a bool, a timestamp, a uuid, bytes, and any other that must be a number's
  split at h
  · obtain ⟨t, _, rfl⟩ := Option.map_eq_some_iff.mp h; rfl
  · split at h <;> obtain ⟨x, _, rfl⟩ := Option.map_eq_some_iff.mp h <;> rfl
  · split at h
    · cases h; rfl
    · obtain ⟨x, _, rfl⟩ := Option.map_eq_some_iff.mp h; rfl
    · cases h
  · split at h
    · obtain ⟨x, _, rfl⟩ := Option.map_eq_some_iff.mp h; rfl
    · obtain ⟨x, _, rfl⟩ := Option.map_eq_some_iff.mp h; rfl
    · cases h
  · split at h
    · cases h; rfl
    · cases h
  · split at h
    · split at h
      · exact kind_toNumeric? h
      · exact kind_readNumeric? h
      · cases h
    · cases h

theorem kind_toKind? (h : v.toKind? k = some w) : w.kind = k := by
  unfold toKind? at h
  split at h
  · rename_i hk
    cases h
    exact hk
  · split at h
    · exact kind_toNumeric? h
    · exact kind_convertAcross? h

theorem kind_toEnum? {e : EnumType} (h : v.toEnum? e = some w) : w.kind = e.underlying := by
  unfold toEnum? at h
  split at h
  · split at h
    · exact kind_toNumeric? h
    · obtain ⟨n, _, hn⟩ := Option.bind_eq_some_iff.mp h
      exact kind_toNumeric? hn
  · split at h
    · exact kind_toNumeric? h
    · cases h

theorem eq_null_of_toKind?_null (h : v.toKind? .null = some w) : v = .null := by
  unfold toKind? at h
  split at h
  · rename_i hk
    exact (kind_eq_null_iff v).mp hk
  · cases h

end Value

/-! ## Conforming values -/

namespace MemberType

variable {v w : Value}

def IntegralEnums : MemberType → Prop
  | .enum e => e.underlying.isIntegral = true
  | .nullable inner => inner.IntegralEnums
  | .primitive _ | .binary | .any => True

theorem holds_of_convertValue? : ∀ {t : MemberType}, t.IntegralEnums → convertValue? v t = some w → t.Holds w
  | .any, _, _ => trivial
  | .binary, _, h => by
    obtain ⟨hbytes, hw⟩ := Option.ite_none_right_eq_some.mp h
    cases hw
    exact hbytes
  | .enum _, ht, h => ⟨ht, Value.kind_toEnum? h⟩
  | .primitive _, _, h => Value.kind_toKind? h
  | .nullable inner, ht, h => holds_of_convertValue? (t := inner) ht h

theorem eq_null_of_convertValue? : ∀ {t : MemberType}, t.IntegralEnums → convertValue? v t = some .null → v = .null
  | .any, _, h => Option.some.inj h
  | .binary, _, h => by
    obtain ⟨_, hv⟩ := Option.ite_none_right_eq_some.mp h
    exact Option.some.inj hv
  | .enum _, ht, h => absurd (Value.kind_toEnum? h).symm (Kind.ne_null_of_isIntegral ht)
  | .primitive k, _, h => by
    have hk : Kind.null = k := Value.kind_toKind? h
    subst hk
    exact Value.eq_null_of_toKind?_null h
  | .nullable inner, ht, h => eq_null_of_convertValue? (t := inner) ht h

/-- Where null is not accepted, its place is taken by a value of the declared kind. -/
theorem holds_defaultValue : ∀ {t : MemberType}, t.IntegralEnums → t.acceptsNull = false → t.Holds t.defaultValue
  | .primitive k, _, h => by
    rw [defaultValue, h]
    cases k <;> first | rfl | cases h
  | .enum _, ht, _ => ⟨ht, Kind.kind_zero_of_isIntegral ht⟩

theorem conforms_defaultValue {t : MemberType} (ht : t.IntegralEnums) : t.Conforms t.defaultValue := by
  cases h : t.acceptsNull with
  | true => exact .inr ⟨by simp only [defaultValue, if_pos h], h⟩
  | false => exact .inl (holds_defaultValue ht h)

theorem convert?_of_ne_null {t : MemberType} (hv : v ≠ .null) : t.convert? v = convertValue? v t := by
  have hnull : v.isNull = false := by
    cases h : v.isNull with
    | false => rfl
    | true => exact absurd ((Value.isNull_iff v).mp h) hv
  rw [convert?, hnull, if_neg Bool.false_ne_true, convertValue?_core]

theorem conforms_of_convert? {t : MemberType} (ht : t.IntegralEnums) (h : t.convert? v = some w) : t.Conforms w := by
  by_cases hv : v = .null
  · subst hv
    cases h
    exact conforms_defaultValue ht
  · rw [convert?_of_ne_null hv] at h
    exact .inl (holds_of_convertValue? ht h)

theorem null_of_convert?_null {t : MemberType} (ht : t.IntegralEnums) (h : t.convert? v = some .null) :
    v = .null ∧ t.acceptsNull = true := by
  have haccepts : t.acceptsNull = true := (conforms_of_convert? ht h).elim acceptsNull_of_holds And.right
  by_cases hv : v = .null
  · exact ⟨hv, haccepts⟩
  · rw [convert?_of_ne_null hv] at h
    exact ⟨eq_null_of_convertValue? ht h, haccepts⟩

end MemberType

/-- The value that a conversion gives has the declared kind of the type, or is null where the type accepts
null; it is null only if null was converted. Converting it again gives the same value, bit for bit. -/
theorem converted_value_conforms {t : MemberType} (ht : t.IntegralEnums) {v w : Value} (h : t.convert? v = some w) :
    t.Conforms w ∧ (w = .null → v = .null ∧ t.acceptsNull = true) ∧ t.convert? w = some w := by
  have hw : t.Conforms w := MemberType.conforms_of_convert? ht h
  refine ⟨hw, ?_, MemberType.convert?_of_conforms hw⟩
  rintro rfl
  exact MemberType.null_of_convert?_null ht h

/-- A variant that is named in another case becomes its number in the kind of the enumeration. -/
theorem named_variant_conforms :
    let t : MemberType := .nullable (.enum ⟨"Priority", .int16, [("Low", 1), ("High", 3)]⟩)
    t.IntegralEnums ∧ t.convert? (.string "high") = some (.int16 3) ∧ t.Conforms (.int16 3) ∧
      t.convert? (.int16 3) = some (.int16 3) := by
  intro t
  have ht : t.IntegralEnums := rfl
  have hconvert : t.convert? (.string "high") = some (.int16 3) := by decide
  obtain ⟨hconforms, _, hagain⟩ := converted_value_conforms ht hconvert
  exact ⟨ht, hconvert, hconforms, hagain⟩

end SqlMapping
