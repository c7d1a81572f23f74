import SqlMapping.Proofs.Calendar.Texts
import SqlMapping.Proofs.Row.Narrowing
import SqlMapping.Proofs.Text.Digits
import SqlMapping.Proofs.Text.Hex

/-!
# Text and back

Values that are converted to text, integers that are converted to decimals and identifiers that are converted to bytes.
`text_reads_back`: conversion of what they become to the kind that they had gives the value that they were.
-/

namespace SqlMapping

def Value.HasPlainText : Value → Prop
  | .bool _ | .int8 _ | .int16 _ | .int32 _ | .int64 _ | .uint8 _ | .uuid _ => True
  | .timestamp t => 0 ≤ (Moment.ofMicros t.toInt).date.year ∧ (Moment.ofMicros t.toInt).date.year ≤ 9999
  | _ => False

/-! ## Integers -/

namespace Value

variable {v : Value} {n : ℤ}

theorem display_of_integer? (h : v.integer? = some n) : v.display = toString n := by
  cases v with
  | int8 _ | int16 _ | int32 _ | int64 _ => cases h; rfl
  | uint8 x =>
    cases h
    exact String.toList_injective (Nat.toList_repr.trans (toList_natural x.toNat).symm)
  | _ => cases h

theorem readInt64_display (h : v.integer? = some n) : readInt64 v.display = some n := by
  obtain ⟨hmin, hmax⟩ := mem_int64_of_integer? h
  rw [display_of_integer? h, readInt64_toString hmin hmax]

theorem narrowNumeral?_display (h : v.integer? = some n) : narrowNumeral? v.display v.kind = some v := by
  simp only [narrowNumeral?, readInt64_display h, ofInteger?_integer h]

theorem trimBlanks_display (h : v.integer? = some n) : trimBlanks v.display = v.display := by
  obtain ⟨hread, -⟩ := Option.filter_eq_some_iff.mp (readInt64_display h)
  obtain ⟨negative, d, hd, -⟩ := readDecimalChars_of_readSigned hread
  exact trimBlanks_of_readDecimal hd

theorem toKind?_string_display (h : v.integer? = some n) (hk : v.kind.isIntegral = true) :
    (string v.display).toKind? v.kind = some v := by
  rw [toKind?_string hk, trimBlanks_display h, narrowNumeral?_display h]

theorem toKind?_decimal_display (h : v.integer? = some n) (hk : v.kind.isIntegral = true) :
    (decimal v.display).toKind? v.kind = some v := by
  rw [toKind?_decimal hk (rational?_of_readInt64 (readInt64_display h)), narrowNumeral?_display h]

theorem integral_reads_back (hk : v.kind.isIntegral = true) :
    v.toKind? .string = some (.string v.display) ∧ (string v.display).toKind? v.kind = some v ∧
      v.toKind? .decimal = some (.decimal v.display) ∧ (decimal v.display).toKind? v.kind = some v := by
  obtain ⟨n, hn⟩ := integer?_of_isIntegral hk
  refine ⟨?_, toKind?_string_display hn hk, ?_, toKind?_decimal_display hn hk⟩
  · cases v <;> first | rfl | cases hk
  · cases v <;> first | rfl | cases hk

end Value

/-! ## Identifiers -/

theorem readUuid?_hyphenated (u : Uuid) : Value.readUuid? u.hyphenated = some u := by
  rw [Value.readUuid?, u.filter_hyphenated, Hex.decodeChars_encodeChars, Option.bind_some, Uuid.ofBytes?, dif_pos u.size]

/-! ## Moments -/

namespace Moment

theorem isBlank_of_mem_padded (width n : ℕ) : ∀ c ∈ (padded width n).toList, isBlank c = false :=
  fun c hc => isBlank_of_isDigit (isDigit_padded width n c hc)

theorem isBlank_of_mem_fractionText {micro : ℕ} : ∀ c ∈ (fractionText micro).toList, isBlank c = false := by
  unfold fractionText
  split
  · simp
  split
  all_goals
    rw [String.toList_append, List.forall_mem_append]
    exact ⟨isBlank_of_any rfl, isBlank_of_mem_padded _ _⟩

theorem trimBlanks_rfc3339 {m : Moment} (h : m.IsCivil) : trimBlanks m.rfc3339 = m.rfc3339 := by
  have hpadded := isBlank_of_mem_padded
  have hoffset := @isBlank_of_any ['0', '0', ':', '0', '0'] rfl
  refine trimBlanks_eq_self ?_
  rw [toList_rfc3339 h]
  simp only [List.forall_mem_append, List.forall_mem_cons] at hoffset ⊢
  exact ⟨hpadded 4 _, rfl, hpadded 2 _, rfl, hpadded 2 _, rfl, hpadded 2 _, rfl, hpadded 2 _, rfl, hpadded 2 _,
    isBlank_of_mem_fractionText, rfl, hoffset⟩

theorem ofMicros?_eq_some {t : ℤ} (h : 0 ≤ (ofMicros t).date.year ∧ (ofMicros t).date.year ≤ 9999) :
    ofMicros? t = some (ofMicros t) := by
  refine if_pos ?_
  simp only [firstYear, lastYear]
  omega

end Moment

/-! ## Texts -/

namespace Value

theorem exists_text {v : Value} (h : v.HasPlainText) :
    ∃ text, v.toKind? .string = some (.string text) ∧ (string text).toKind? v.kind = some v := by
  by_cases hk : v.kind.isIntegral = true
  · obtain ⟨htext, hback, -⟩ := integral_reads_back hk
    exact ⟨v.display, htext, hback⟩
  cases v with
  | bool b => exact ⟨boolText b, rfl, by cases b <;> decide⟩
  | int8 _ | int16 _ | int32 _ | int64 _ | uint8 _ => exact absurd rfl hk
  | uuid u =>
    refine ⟨u.hyphenated, rfl, ?_⟩
    show (readUuid? u.hyphenated).map uuid = some (uuid u)
    rw [readUuid?_hyphenated, Option.map_some]
  | timestamp t =>
    refine ⟨(Moment.ofMicros t.toInt).rfc3339, ?_, ?_⟩
    · show ((Moment.ofMicros? t.toInt).map Moment.rfc3339).map string = _
      rw [Moment.ofMicros?_eq_some h, Option.map_some, Option.map_some]
    · show (Moment.readRfc3339 (trimBlanks (Moment.ofMicros t.toInt).rfc3339)).map (fun n => timestamp (Int64.ofInt n)) = _
      rw [Moment.trimBlanks_rfc3339 (Moment.isCivil_ofMicros h), Moment.readRfc3339_ofMicros h, Option.map_some,
        Int64.ofInt_toInt]
  | _ => cases h

end Value

/-- A value that becomes text, an integer that becomes a decimal and an identifier that becomes bytes are what they were
again as soon as that is converted to their kind. -/
theorem text_reads_back :
    (∀ v : Value, v.HasPlainText → ∃ text, (MemberType.primitive .string).convert? v = some (.string text) ∧
      (MemberType.primitive v.kind).convert? (.string text) = some v) ∧
    (∀ v : Value, v.kind.isIntegral = true → ∃ text,
      (MemberType.primitive .decimal).convert? v = some (.decimal text) ∧
      (MemberType.primitive v.kind).convert? (.decimal text) = some v) ∧
    ∀ u : Uuid, ∃ bs, (MemberType.primitive .bytes).convert? (.uuid u) = some (.bytes bs) ∧
      (MemberType.primitive .uuid).convert? (.bytes bs) = some (.uuid u) := by
  refine ⟨fun v hv => ?_, fun v hk => ?_, fun u => ?_⟩
  · obtain ⟨text, htext, hback⟩ := Value.exists_text hv
    have hnull : v ≠ .null := by rintro rfl; cases hv
    exact ⟨text, (MemberType.convert?_primitive hnull _).trans htext, hback⟩
  · obtain ⟨-, -, hdecimal, hback⟩ := Value.integral_reads_back hk
    have hnull : v ≠ .null := by rintro rfl; cases hk
    exact ⟨v.display, (MemberType.convert?_primitive hnull _).trans hdecimal, hback⟩
  · refine ⟨u.bytes, rfl, ?_⟩
    show (Uuid.ofBytes? u.bytes).map Value.uuid = some (.uuid u)
    rw [Uuid.ofBytes?, dif_pos u.size, Option.map_some]

/-- A moment before 1970, the least 64-bit integer and an identifier are read back. -/
theorem last_microsecond_reads_back :
    (Value.timestamp (-1)).HasPlainText ∧ (Value.int64 (-9223372036854775808)).kind.isIntegral = true ∧
    (∃ text, (MemberType.primitive .string).convert? (.timestamp (-1)) = some (.string text) ∧
      (MemberType.primitive .timestamp).convert? (.string text) = some (.timestamp (-1))) ∧
    (∃ text, (MemberType.primitive .decimal).convert? (.int64 (-9223372036854775808)) = some (.decimal text) ∧
      (MemberType.primitive .int64).convert? (.decimal text) = some (.int64 (-9223372036854775808))) ∧
    ∃ bs, (MemberType.primitive .bytes).convert? (.uuid Uuid.zero) = some (.bytes bs) ∧
      (MemberType.primitive .uuid).convert? (.bytes bs) = some (.uuid Uuid.zero) := by
  have htimestamp : (Value.timestamp (-1)).HasPlainText := by
    show 0 ≤ _ ∧ _ ≤ _
    decide
  obtain ⟨htexts, hdecimals, hbytes⟩ := text_reads_back
  exact ⟨htimestamp, rfl, htexts _ htimestamp, hdecimals (.int64 (-9223372036854775808)) rfl, hbytes Uuid.zero⟩

end SqlMapping
