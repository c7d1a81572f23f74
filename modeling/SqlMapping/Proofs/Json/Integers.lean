import SqlMapping.Json.Decode
import SqlMapping.Proofs.Json.Text
import SqlMapping.Proofs.Text.Digits
import SqlMapping.Value.Json
import Mathlib.Data.List.TakeWhile

/-!
# Integers in JSON

An integer is written in decimal, without leading zeros, and so as a numeral. `integer?_ofInt`: one of 64 bits is read
back within any bounds it lies in, as are bytes.
-/

namespace SqlMapping.Json

/-! ## Digits -/

theorem head_toDigits (n : Nat) (h : 0 < n) : (Nat.toDigits 10 n).head? ≠ some '0' := by
  induction n using Nat.strongRecOn with
  | ind n ih =>
    by_cases hsmall : n < 10
    · have hdigit : ∀ d < 10, 0 < d → Nat.digitChar d ≠ '0' := by decide
      rw [Nat.toDigits_of_lt_base hsmall]
      simpa using hdigit n hsmall h
    · rw [Nat.toDigits_of_base_le (by decide) (by omega), List.head?_append]
      cases hhead : (Nat.toDigits 10 (n / 10)).head? with
      | none => exact absurd (List.head?_eq_none_iff.mp hhead) Nat.toDigits_ne_nil
      | some c =>
        have hrest := ih (n / 10) (by omega) (by omega)
        rwa [hhead] at hrest

theorem takeWhile_toDigits (n : Nat) : (Nat.toDigits 10 n).takeWhile Char.isDigit = Nat.toDigits 10 n :=
  List.takeWhile_eq_self_iff.mpr (isDigit_toDigits n)

theorem dropWhile_toDigits (n : Nat) : (Nat.toDigits 10 n).dropWhile Char.isDigit = [] :=
  List.dropWhile_eq_nil_iff.mpr (isDigit_toDigits n)

theorem takeWhole_toDigits (n : Nat) : takeWhole (Nat.toDigits 10 n) = some (Nat.toDigits 10 n, []) := by
  have hrun : takeRun (Nat.toDigits 10 n) = some (Nat.toDigits 10 n, []) := by
    simp [takeRun, takeWhile_toDigits, dropWhile_toDigits]
  -- Only zero starts with a zero, and it is a single digit.
  have hzeros : ¬ (1 < (Nat.toDigits 10 n).length ∧ (Nat.toDigits 10 n).head? = some '0') := by
    intro h
    by_cases hn : 0 < n
    · exact head_toDigits n hn h.2
    · obtain rfl : n = 0 := by omega
      exact absurd h.1 (by decide)
  simp [takeWhole, hrun, hzeros]

theorem takeUnsigned_toDigits (sign : List Char) (n : Nat) :
    takeUnsigned sign (Nat.toDigits 10 n) = some (sign ++ Nat.toDigits 10 n, []) := by
  simp [takeUnsigned, takeWhole_toDigits, takeFraction, takeExponent]

theorem head?_toDigits_ne {c : Char} (hc : c.isDigit = false) (n : Nat) : (Nat.toDigits 10 n).head? ≠ some c := by
  intro h
  have hdigit := isDigit_toDigits n c (List.mem_of_mem_head? h)
  rw [hc] at hdigit
  cases hdigit

/-! ## Numerals -/

theorem isNumeral_int (n : Int) : IsNumeral (toString n) := by
  unfold IsNumeral
  cases n with
  | ofNat n =>
    have hlist := toList_natural n
    rw [Int.ofNat_eq_natCast, hlist, takeNumeral_of_ne (head?_toDigits_ne (by decide) n), takeUnsigned_toDigits]
    rfl
  | negSucc n =>
    rw [toList_negative, takeNumeral_minus, takeUnsigned_toDigits]
    rfl

theorem takeSign_toDigits (n : Nat) : takeSign (Nat.toDigits 10 n) = (false, Nat.toDigits 10 n) := by
  have hminus := head?_toDigits_ne (show '-'.isDigit = false by decide) n
  have hplus := head?_toDigits_ne (show '+'.isDigit = false by decide) n
  cases hdigits : Nat.toDigits 10 n with
  | nil => rfl
  | cons c cs =>
    rw [hdigits, List.head?_cons, Ne, Option.some.injEq] at hminus hplus
    simp [takeSign, hminus, hplus]

theorem Number.read_natural {n : Nat} (h : n ≤ greatestSignificand) :
    Number.read (toString (n : Int)) = some (.natural n) := by
  unfold Number.read
  rw [toList_natural, takeSign_toDigits]
  simp [takeWhile_toDigits, dropWhile_toDigits, natOfDigits_toDigits, Nat.not_lt.mpr h]

theorem Number.read_negative {n : Nat} (h : (n : Int) ≤ int64Max) :
    Number.read (toString (Int.negSucc n)) = some (.negative (Int.negSucc n)) := by
  have hsmall : ¬ greatestSignificand < n + 1 := by
    simp only [greatestSignificand, UInt64.size, int64Max] at h ⊢
    omega
  unfold Number.read
  rw [toList_negative, takeSign]
  simp [takeWhile_toDigits, dropWhile_toDigits, natOfDigits_toDigits, hsmall, Int.not_lt.mpr h,
    Int.negSucc_eq]

theorem integer?_ofInt {least greatest n : Int} (hmin : int64Min ≤ least) (hmax : greatest ≤ int64Max)
    (hleast : least ≤ n) (hgreatest : n ≤ greatest) : (ofInt n).integer? least greatest = some n := by
  unfold integer?
  cases n with
  | ofNat n =>
    have hsmall : n ≤ greatestSignificand := by
      simp only [greatestSignificand, UInt64.size, int64Max, Int.ofNat_eq_natCast] at hmax hgreatest ⊢
      omega
    have hread : (ofInt (n : Int)).number? = some (.natural n) := Number.read_natural hsmall
    rw [Int.ofNat_eq_natCast, hread]
    exact if_pos ⟨hleast, hgreatest⟩
  | negSucc n =>
    have hsmall : (n : Int) ≤ int64Max := by
      simp only [int64Max, int64Min] at hmin hleast ⊢
      omega
    have hread : (ofInt (Int.negSucc n)).number? = some (.negative (Int.negSucc n)) := Number.read_negative hsmall
    rw [hread]
    exact if_pos ⟨hleast, hgreatest⟩

theorem bytes?_ofBytes (bs : List UInt8) {room : Nat} (hroom : 0 < room) : (ofBytes bs).bytes? room = some bs := by
  have hbyte : ∀ b : UInt8, ((ofInt b.toNat).integer? 0 255).map (fun n => UInt8.ofNat n.toNat) = some b := by
    intro b
    have hlt := b.toNat_lt
    rw [integer?_ofInt (by decide) (by decide) (by omega) (by omega)]
    simp
  simp only [bytes?, ofBytes, items?, hroom, if_pos, Option.bind_eq_bind, Option.bind_some]
  induction bs with
  | nil => rfl
  | cons b bs ih => simp [hbyte, ih]

end SqlMapping.Json
