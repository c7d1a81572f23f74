import SqlMapping.Text.Numeral
import Mathlib.Tactic.Ring

/-!
# Digits of integers

An integer is written in decimal without leading zeros, and a field of fixed width with as many as fill it up.
`readInt64_toString` and `natOfDigits_padded`: both are read back.
-/

namespace SqlMapping

/-! ## Digits -/

theorem isDigit_toDigits (n : Nat) : ∀ c ∈ Nat.toDigits 10 n, c.isDigit = true :=
  fun _ hc => Nat.isDigit_of_mem_toDigits (by decide) (by decide) hc

theorem natOfDigits_toDigits (n : Nat) : natOfDigits (Nat.toDigits 10 n) = n := by
  have hread : Nat.ofDigitChars 10 (Nat.toDigits 10 n) 0 = n := Nat.ofDigitChars_ten_toDigits
  rwa [Nat.ofDigitChars_eq_foldl] at hread

theorem readNat_toDigits (n : Nat) : readNat (Nat.toDigits 10 n) = some n := by
  have hdigits : (Nat.toDigits 10 n).all Char.isDigit = true := List.all_eq_true.mpr (isDigit_toDigits n)
  rw [readNat, if_pos ⟨Nat.toDigits_ne_nil, hdigits⟩, natOfDigits_toDigits]

theorem natOfDigits_append (ds ds' : List Char) :
    natOfDigits (ds ++ ds') = natOfDigits ds * 10 ^ ds'.length + natOfDigits ds' := by
  have hfold : ∀ n, ds'.foldl (fun n d => 10 * n + digitOf d) n = n * 10 ^ ds'.length + natOfDigits ds' := by
    unfold natOfDigits
    induction ds' with
    | nil => simp
    | cons d ds' ih =>
      intro n
      rw [List.foldl_cons, ih, List.foldl_cons, ih (10 * 0 + digitOf d), List.length_cons, pow_succ]
      ring
  rw [natOfDigits, List.foldl_append]
  exact hfold _

theorem natOfDigits_zeros (n : Nat) : natOfDigits (List.replicate n '0') = 0 := by
  induction n with
  | zero => rfl
  | succ n ih =>
    rw [List.replicate_succ', natOfDigits_append, ih]
    rfl

theorem isDigit_of_mem_zeros {n : Nat} {c : Char} (hc : c ∈ List.replicate n '0') : c.isDigit = true := by
  rw [List.eq_of_mem_replicate hc]
  rfl

/-! ## Integers -/

theorem toList_natural (n : Nat) : (toString (n : Int)).toList = Nat.toDigits 10 n := Nat.toList_repr

theorem toList_negative (n : Nat) : (toString (Int.negSucc n)).toList = '-' :: Nat.toDigits 10 (n + 1) := by
  have hrepr : toString (Int.negSucc n) = "-" ++ (n + 1).repr := rfl
  rw [hrepr, String.toList_append, Nat.toList_repr]
  rfl

theorem readSigned_toDigits (n : Nat) : readSigned (Nat.toDigits 10 n) = some (n : Int) := by
  have hsign : ∀ c ∈ Nat.toDigits 10 n, c ≠ '-' ∧ c ≠ '+' := by
    intro c hc
    have hdigit := isDigit_toDigits n c hc
    constructor <;> rintro rfl <;> cases hdigit
  unfold readSigned
  split
  · rename_i cs hcs
    exact absurd rfl (hsign '-' (by rw [hcs]; exact List.mem_cons_self)).1
  · rename_i cs hcs
    exact absurd rfl (hsign '+' (by rw [hcs]; exact List.mem_cons_self)).2
  · rw [readNat_toDigits]
    rfl

theorem readSigned_toString (n : Int) : readSigned (toString n).toList = some n := by
  cases n with
  | ofNat n =>
    have hlist := toList_natural n
    rw [Int.ofNat_eq_natCast, hlist, readSigned_toDigits]
  | negSucc n =>
    rw [toList_negative, readSigned, readNat_toDigits]
    rfl

theorem readInt64_toString {n : Int} (hmin : int64Min ≤ n) (hmax : n ≤ int64Max) :
    readInt64 (toString n) = some n := by
  rw [readInt64, readSigned_toString]
  simp [hmin, hmax]

/-! ## Fields of fixed width -/

theorem toList_pushn (c : Char) (n : Nat) (s : String) : (s.pushn c n).toList = s.toList ++ List.replicate n c := by
  rw [String.pushn_eq_repeat_push]
  induction n with
  | zero => simp [Nat.repeat]
  | succ n ih => simp [Nat.repeat, ih, List.replicate_succ']

theorem toList_padded (width n : Nat) : (padded width n).toList =
    List.replicate (width - (Nat.toDigits 10 n).length) '0' ++ Nat.toDigits 10 n := by
  have hdigits : (toString n).toList = Nat.toDigits 10 n := Nat.toList_repr
  have hlength : (toString n).length = (Nat.toDigits 10 n).length := by rw [← hdigits, String.length_toList]
  rw [padded, String.toList_append, toList_pushn, hdigits, hlength]
  rfl

theorem isDigit_padded (width n : Nat) : ∀ c ∈ (padded width n).toList, c.isDigit = true := by
  rw [toList_padded]
  intro c hc
  obtain hzero | hdigit := List.mem_append.mp hc
  · exact isDigit_of_mem_zeros hzero
  · exact isDigit_toDigits n c hdigit

theorem natOfDigits_padded (width n : Nat) : natOfDigits (padded width n).toList = n := by
  rw [toList_padded, natOfDigits_append, natOfDigits_zeros, Nat.zero_mul, Nat.zero_add, natOfDigits_toDigits]

theorem length_padded {width n : Nat} (hwidth : 0 < width) (h : n < 10 ^ width) :
    (padded width n).toList.length = width := by
  have hle := (Nat.length_toDigits_le_iff (b := 10) (by decide) hwidth).mpr h
  rw [toList_padded, List.length_append, List.length_replicate]
  omega

end SqlMapping
