import SqlMapping.Text.Ascii

/-!
# Texts as bytes

A text is stored in bytes, one to four for each character. `cut?_append`: it can be cut in two at an offset in bytes
that lies between two characters. `eq_of_mem_utf8EncodeChar`: a character of one byte shares that byte with no other.
-/

namespace SqlMapping

def bytesOf (s : String) : List UInt8 := s.toByteArray.data.toList

/-- What is before and what is behind an offset in bytes. There is nothing if the offset is inside a character. -/
def cut? (s : String) (offset : Nat) : Option (String × String) :=
  if h : (⟨offset⟩ : String.Pos.Raw).IsValid s then
    some ((s.sliceTo (s.pos ⟨offset⟩ h)).copy, (s.sliceFrom (s.pos ⟨offset⟩ h)).copy)
  else none

theorem bytesOf_ofList (cs : List Char) : bytesOf (String.ofList cs) = cs.flatMap String.utf8EncodeChar := by
  rw [bytesOf, String.toByteArray_ofList, List.utf8Encode, List.toList_data_toByteArray]

theorem bytesOf_append (cs cs' : List Char) :
    bytesOf (String.ofList (cs ++ cs')) = bytesOf (String.ofList cs) ++ bytesOf (String.ofList cs') := by
  simp only [bytesOf_ofList, List.flatMap_append]

theorem bytesOf_cons (c : Char) (cs : List Char) :
    bytesOf (String.ofList (c :: cs)) = String.utf8EncodeChar c ++ bytesOf (String.ofList cs) := by
  simp only [bytesOf_ofList, List.flatMap_cons]

theorem bytesOf_concat (cs : List Char) (c : Char) :
    bytesOf (String.ofList (cs ++ [c])) = bytesOf (String.ofList cs) ++ String.utf8EncodeChar c := by
  rw [bytesOf_append, bytesOf_ofList [c], List.flatMap_singleton]

theorem length_bytesOf (s : String) : (bytesOf s).length = s.utf8ByteSize := by
  rw [← String.size_toByteArray]
  rfl

theorem cut?_append (cs cs' : List Char) :
    cut? (String.ofList (cs ++ cs')) (bytesOf (String.ofList cs)).length =
      some (String.ofList cs, String.ofList cs') := by
  have hvalid : (⟨(bytesOf (String.ofList cs)).length⟩ : String.Pos.Raw).IsValid (String.ofList (cs ++ cs')) :=
    String.Pos.Raw.isValid_iff_exists_append.mpr ⟨_, _, String.ofList_append, by rw [length_bytesOf]; rfl⟩
  have hsplits : ((String.ofList (cs ++ cs')).pos _ hvalid).Splits (String.ofList cs) (String.ofList cs') :=
    ⟨String.ofList_append, by rw [String.offset_pos, length_bytesOf]; rfl⟩
  obtain ⟨hbefore, hbehind⟩ := ((String.ofList (cs ++ cs')).pos _ hvalid).splits.eq hsplits
  rw [cut?, dif_pos hvalid, hbefore, hbehind]

/-! ## Characters of one byte -/

theorem le_byte {k : UInt8} (hk : 128 ≤ k) (x : UInt8) : 128 ≤ x ||| k := by
  rw [UInt8.le_iff_toNat_le] at *
  rw [UInt8.toNat_or]
  exact Nat.le_trans hk Nat.right_le_or

/-- All bytes of a character that needs several have their high bit set. -/
theorem utf8EncodeChar_of_mem {b : UInt8} (hb : b < 128) {c : Char} (h : b ∈ String.utf8EncodeChar c) :
    String.utf8EncodeChar c = [b] := by
  have hhigh : ∀ x k : UInt8, 128 ≤ k → b ≠ x ||| k := by
    rintro x k hk rfl
    exact absurd (le_byte hk x) (UInt8.not_le.mpr hb)
  rcases c.utf8Size_eq with hc | hc | hc | hc
  · rw [String.utf8EncodeChar_eq_singleton hc] at h ⊢
    rw [List.mem_singleton.mp h]
  · rw [String.utf8EncodeChar_eq_cons_cons hc] at h
    simp [hhigh] at h
  · rw [String.utf8EncodeChar_eq_cons_cons_cons hc] at h
    simp [hhigh] at h
  · rw [String.utf8EncodeChar_eq_cons_cons_cons_cons hc] at h
    simp [hhigh] at h

theorem eq_of_mem_utf8EncodeChar {a c : Char} {b : UInt8} (ha : String.utf8EncodeChar a = [b]) (hb : b < 128)
    (h : b ∈ String.utf8EncodeChar c) : c = a := by
  have hsingle : String.singleton c = String.singleton a := by
    rw [← String.toByteArray_inj, String.toByteArray_singleton, String.toByteArray_singleton,
      List.utf8Encode_singleton, List.utf8Encode_singleton, utf8EncodeChar_of_mem hb h, ha]
  simpa using congrArg String.toList hsingle

end SqlMapping
