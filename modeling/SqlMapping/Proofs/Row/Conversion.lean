import SqlMapping.Row.Conversion

/-!
# Conforming values

A value conforms to a member's type if it has the declared kind, or is null where the type accepts it.
`MemberType.convert?_of_conforms`: conversion passes conforming values on unchanged.
-/

namespace SqlMapping

namespace MemberType

def Holds : MemberType → Value → Prop
  | .primitive k, v => v.kind = k
  | .enum e, v => e.underlying.isIntegral = true ∧ v.kind = e.underlying
  | .nullable inner, v => inner.Holds v
  | .binary, v => v.kind = .bytes
  | .any, _ => True

def Conforms (t : MemberType) (v : Value) : Prop := t.Holds v ∨ v = .null ∧ t.acceptsNull = true

instance decidableHolds : (t : MemberType) → (v : Value) → Decidable (t.Holds v)
  | .primitive _, _ => inferInstanceAs (Decidable (_ = _))
  | .enum _, _ => inferInstanceAs (Decidable (_ ∧ _))
  | .nullable inner, v => decidableHolds inner v
  | .binary, _ => inferInstanceAs (Decidable (_ = _))
  | .any, _ => inferInstanceAs (Decidable True)

instance (t : MemberType) (v : Value) : Decidable (t.Conforms v) := inferInstanceAs (Decidable (_ ∨ _))

end MemberType

namespace Value

theorem ofInteger?_integer {v : Value} {n : Int} (h : v.integer? = some n) : ofInteger? v.kind n = some v := by
  cases v with
  | int8 x =>
    cases h
    simp only [kind, ofInteger?, Int8.ofInt_toInt]
    exact if_pos ⟨x.le_toInt, x.toInt_le⟩
  | int16 x =>
    cases h
    simp only [kind, ofInteger?, Int16.ofInt_toInt]
    exact if_pos ⟨x.le_toInt, x.toInt_le⟩
  | int32 x =>
    cases h
    simp only [kind, ofInteger?, Int32.ofInt_toInt]
    exact if_pos ⟨x.le_toInt, x.toInt_le⟩
  | int64 x =>
    cases h
    simp only [kind, ofInteger?, Int64.ofInt_toInt]
  | uint8 x =>
    cases h
    have hlt := x.toNat_lt
    simp only [kind, ofInteger?, Int.toNat_natCast, UInt8.ofNat_toNat]
    exact if_pos (by omega)
  | _ => cases h

theorem integer?_of_isIntegral {v : Value} (h : v.kind.isIntegral = true) : ∃ n, v.integer? = some n := by
  cases v <;> first | exact ⟨_, rfl⟩ | cases h

theorem toNumeric?_kind {v : Value} (h : v.kind.isIntegral = true) : v.toNumeric? v.kind = some v := by
  obtain ⟨n, hn⟩ := integer?_of_isIntegral h
  have hnearest : v.nearestInteger? = some n := by simp only [nearestInteger?, hn]
  simp only [toNumeric?, if_pos h, hnearest]
  exact ofInteger?_integer hn

theorem toEnum?_of_holds {v : Value} {e : EnumType} (h : e.underlying.isIntegral = true)
    (hv : v.kind = e.underlying) :
    v.toEnum? e = some v := by
  rw [← hv] at h
  have hnumeric : v.kind.isNumeric = true := by cases v <;> first | rfl | cases h
  rw [toEnum?]
  · rw [if_pos hnumeric, ← hv]
    exact toNumeric?_kind h
  · rintro t rfl
    cases h

end Value

namespace MemberType

variable {v : Value}

theorem convertValue?_core (v : Value) : ∀ t : MemberType, convertValue? v t.core = convertValue? v t
  | .nullable inner => (convertValue?_core v inner).trans (by rw [convertValue?])
  | .primitive _ | .enum _ | .binary | .any => rfl

theorem convert?_primitive (h : v ≠ .null) (k : Kind) : (primitive k).convert? v = v.toKind? k := by
  rw [convert?, if_neg (by rwa [Value.isNull_iff])]
  rfl

theorem convertValue?_of_holds : ∀ t : MemberType, t.Holds v → convertValue? v t = some v
  | .any, _ => rfl
  | .binary, h => if_pos h
  | .enum _, h => Value.toEnum?_of_holds h.1 h.2
  | .primitive _, h => if_pos h
  | .nullable inner, h => convertValue?_of_holds inner h

theorem acceptsNull_of_holds : ∀ {t : MemberType}, t.Holds .null → t.acceptsNull = true
  | .any, _ | .nullable _, _ | .binary, _ => rfl
  | .primitive k, h => by
    have hk : Kind.null = k := h
    simp [acceptsNull, ← hk]
  | .enum e, h => by
    have hk : Kind.null = e.underlying := h.2
    have := h.1
    rw [← hk] at this
    cases this

theorem convert?_of_conforms {t : MemberType} (h : t.Conforms v) : t.convert? v = some v := by
  rw [convert?]
  cases hnull : v.isNull with
  | true =>
    obtain rfl := (Value.isNull_iff v).mp hnull
    have haccepts : t.acceptsNull = true := h.elim acceptsNull_of_holds And.right
    simp only [defaultValue, if_pos haccepts, if_true]
  | false =>
    have hv : v ≠ .null := by rintro rfl; cases hnull
    rw [if_neg (by simp), convertValue?_core]
    exact convertValue?_of_holds t (h.resolve_right fun h => hv h.1)

end MemberType

end SqlMapping
