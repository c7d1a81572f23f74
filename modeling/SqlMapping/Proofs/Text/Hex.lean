import SqlMapping.Value.Text

/-!
# Hexadecimal text of bytes

`Hex.decodeChars_encodeChars` and `Uuid.filter_hyphenated`: bytes are read back from their digits, and an identifier has
those of its bytes between its hyphens.
-/

namespace SqlMapping

namespace Hex

theorem digitValue?_digit : ∀ n < 16, digitValue? (digit n) = some n := by decide

theorem digit_ne_hyphen : ∀ n < 16, digit n ≠ '-' := by decide

theorem decodeChars_encodeChars (bs : List UInt8) : decodeChars (encodeChars bs) = some bs := by
  induction bs with
  | nil => rfl
  | cons b bs ih =>
    have hb := b.toNat_lt
    have hhigh := digitValue?_digit (b.toNat / 16) (by omega)
    have hlow := digitValue?_digit (b.toNat % 16) (by omega)
    have hcons : encodeChars (b :: bs) = digit (b.toNat / 16) :: digit (b.toNat % 16) :: encodeChars bs := rfl
    simp only [hcons, decodeChars, hhigh, hlow, ih, Option.map_some, Nat.div_add_mod, UInt8.ofNat_toNat]

theorem ne_hyphen_of_mem_encodeChars {bs : List UInt8} {c : Char} (hc : c ∈ encodeChars bs) : c ≠ '-' := by
  obtain ⟨b, -, hb⟩ := List.mem_flatMap.mp hc
  have hlt := b.toNat_lt
  simp only [encodeByte, List.mem_cons, List.not_mem_nil, or_false] at hb
  obtain rfl | rfl := hb <;> exact digit_ne_hyphen _ (by omega)

theorem length_encodeChars (bs : List UInt8) : (encodeChars bs).length = 2 * bs.length := by
  induction bs with
  | nil => rfl
  | cons b bs ih =>
    have hcons : encodeChars (b :: bs) = digit (b.toNat / 16) :: digit (b.toNat % 16) :: encodeChars bs := rfl
    rw [hcons, List.length_cons, List.length_cons, ih, List.length_cons]
    omega

end Hex

theorem Uuid.filter_hyphenated (u : Uuid) :
    u.hyphenated.toList.filter (· != '-') = Hex.encodeChars u.bytes := by
  have hlength : (Hex.encodeChars u.bytes).length = 32 := by rw [Hex.length_encodeChars, u.size]
  have hdigits : ∀ c ∈ Hex.encodeChars u.bytes, (c != '-') = true := fun c hc =>
    bne_iff_ne.mpr (Hex.ne_hyphen_of_mem_encodeChars hc)
  simp only [hyphenated]
  generalize Hex.encodeChars u.bytes = hs at hlength hdigits
  have hgroup : ∀ start count, ((hs.drop start).take count).filter (· != '-') = (hs.drop start).take count :=
    fun start count => List.filter_eq_self.mpr fun c hc => hdigits c (List.mem_of_mem_drop (List.mem_of_mem_take hc))
  have hjoin : ∀ start count, (hs.drop start).take count ++ hs.drop (start + count) = hs.drop start := by
    intro start count
    rw [← List.drop_drop, List.take_append_drop]
  have hlast : (hs.drop 20).take 12 = hs.drop 20 := List.take_of_length_le (by rw [List.length_drop]; omega)
  have hhyphen : ("-".toList).filter (· != '-') = [] := by decide
  simp only [String.toList_intercalate, List.map_cons, List.map_nil, String.toList_ofList, List.intercalate_cons_cons,
    List.intercalate_singleton, List.filter_append, hgroup, hhyphen, List.nil_append, List.append_assoc]
  rw [hlast, hjoin 16 4, hjoin 12 4, hjoin 8 4, hjoin 0 8, List.drop_zero]

end SqlMapping
