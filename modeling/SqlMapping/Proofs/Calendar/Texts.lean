import SqlMapping.Calendar.Moment
import SqlMapping.Proofs.Calendar.Dates
import SqlMapping.Proofs.Text.Digits
import Mathlib.Data.List.TakeWhile

/-!
# Texts of moments

The text of a moment is read field by field, each of its own width. `Moment.readRfc3339_ofMicros`: the text of a moment
of the years 0 to 9999 is read as the moment that it was written for.
-/

namespace SqlMapping.Moment

/-! ## Fields -/

theorem takeDigits_padded {width n : Nat} (hwidth : 0 < width) (h : n < 10 ^ width) (rest : List Char) :
    takeDigits width ((padded width n).toList ++ rest) = some (n, rest) := by
  have hlength := length_padded hwidth h
  have hdigits : (padded width n).toList.all Char.isDigit = true := List.all_eq_true.mpr (isDigit_padded width n)
  have htake : ((padded width n).toList ++ rest).take width = (padded width n).toList :=
    List.take_left' hlength
  have hdrop : ((padded width n).toList ++ rest).drop width = rest := List.drop_left' hlength
  simp only [takeDigits, htake, hdrop, hlength, hdigits, and_self, if_true, natOfDigits_padded]

/-- Up to six digits of a fraction, before something that is no digit. -/
theorem takeFraction_padded {width n : Nat} (hwidth : 0 < width) (hsix : width ≤ 6) (h : n < 10 ^ width)
    {c : Char} (hc : c.isDigit = false) (rest : List Char) :
    takeFraction ('.' :: ((padded width n).toList ++ c :: rest)) = some (n * 10 ^ (6 - width), c :: rest) := by
  have hlength := length_padded hwidth h
  have hdigits := isDigit_padded width n
  have htake : ((padded width n).toList ++ c :: rest).takeWhile Char.isDigit = (padded width n).toList := by
    rw [List.takeWhile_append_of_pos hdigits, List.takeWhile_cons_of_neg (by simp [hc]), List.append_nil]
  have hdrop : ((padded width n).toList ++ c :: rest).dropWhile Char.isDigit = c :: rest := by
    rw [List.dropWhile_append_of_pos hdigits, List.dropWhile_cons_of_neg (by simp [hc])]
  have hne : (padded width n).toList.isEmpty = false := by
    rw [← Bool.not_eq_true, List.isEmpty_iff, ← List.length_eq_zero_iff]
    omega
  have hfill : ((padded width n).toList ++ List.replicate 6 '0').take 6 =
      (padded width n).toList ++ List.replicate (6 - width) '0' := by
    rw [List.take_append, hlength, List.take_of_length_le (by omega), List.take_replicate, Nat.min_eq_left (by omega)]
  simp only [takeFraction, htake, hdrop, hne, hfill]
  rw [natOfDigits_append, natOfDigits_padded, natOfDigits_zeros, List.length_replicate]
  rfl

theorem takeFraction_fractionText {micro : Nat} (h : micro < 10 ^ 6) (rest : List Char) :
    takeFraction ((fractionText micro).toList ++ '+' :: rest) = some (micro, '+' :: rest) := by
  have hpoint : ∀ s : String, ("." ++ s).toList = '.' :: s.toList := fun s => String.toList_append
  unfold fractionText
  split
  · rename_i hzero
    rw [hzero]
    rfl
  split
  · rename_i hmillis
    rw [hpoint, List.cons_append, takeFraction_padded (by decide) (by decide) (by omega) rfl]
    congr 2
    omega
  · rw [hpoint, List.cons_append, takeFraction_padded (by decide) (by decide) h rfl]
    simp

/-! ## The whole text -/

structure IsCivil (m : Moment) : Prop where
  date : m.date.IsValid
  year : 0 ≤ m.date.year ∧ m.date.year ≤ 9999
  second : m.second < 86400
  micro : m.micro < 10 ^ 6

theorem toList_rfc3339 {m : Moment} (h : m.IsCivil) : m.rfc3339.toList =
    (padded 4 m.date.year.natAbs).toList ++ '-' :: ((padded 2 m.date.month).toList ++ '-' ::
      ((padded 2 m.date.day).toList ++ 'T' :: ((padded 2 (m.second / 3600)).toList ++ ':' ::
        ((padded 2 (m.second / 60 % 60)).toList ++ ':' :: ((padded 2 (m.second % 60)).toList ++
          ((fractionText m.micro).toList ++ '+' :: ['0', '0', ':', '0', '0'])))))) := by
  have hyear : yearText m.date.year = padded 4 m.date.year.natAbs := if_pos h.year
  have hhyphen : "-".toList = ['-'] := rfl
  have hcolon : ":".toList = [':'] := rfl
  have htee : "T".toList = ['T'] := rfl
  have hoffset : "+00:00".toList = ['+', '0', '0', ':', '0', '0'] := rfl
  simp only [rfc3339, dateText, timeText, hyear, String.toList_append, List.append_assoc, hhyphen, hcolon, htee, hoffset,
    List.cons_append, List.nil_append]

theorem readRfc3339_rfc3339 {m : Moment} (h : m.IsCivil) : readRfc3339 m.rfc3339 = some m.toMicros := by
  obtain ⟨hmonth, hmonth', hday, hday'⟩ := h.date
  obtain ⟨hyear, hyear'⟩ := h.year
  have hsecond := h.second
  have hdays := Date.daysInMonth_le m.date.year m.date.month
  have htwo : 0 < 2 := by decide
  have hoffset : readOffset ['+', '0', '0', ':', '0', '0'] = some 0 := by decide
  have hdate : (⟨(m.date.year.natAbs : Int), m.date.month, m.date.day⟩ : Date) = m.date := by
    rw [Int.natAbs_of_nonneg hyear]
  have hclock : m.second / 3600 < 24 ∧ m.second / 60 % 60 < 60 ∧ m.second % 60 ≤ 60 := by omega
  have hsum : m.second / 3600 * 3600 + m.second / 60 % 60 * 60 + m.second % 60 = m.second := by omega
  unfold readRfc3339
  simp only [toList_rfc3339 h, Option.bind_eq_bind, Option.bind_some, takeChar, beq_self_eq_true, Bool.true_or, if_true,
    takeDigits_padded (show 0 < 4 by decide) (show m.date.year.natAbs < 10 ^ 4 by omega),
    takeDigits_padded htwo (show m.date.month < 10 ^ 2 by omega),
    takeDigits_padded htwo (show m.date.day < 10 ^ 2 by omega),
    takeDigits_padded htwo (show m.second / 3600 < 10 ^ 2 by omega),
    takeDigits_padded htwo (show m.second / 60 % 60 < 10 ^ 2 by omega),
    takeDigits_padded htwo (show m.second % 60 < 10 ^ 2 by omega),
    takeFraction_fractionText h.micro, hoffset, hdate, hsum]
  rw [if_pos ⟨h.date, hclock⟩, Int.zero_mul, Int.sub_zero]

/-! ## Moments of microseconds -/

theorem toMicros_ofMicros (t : Int) : (ofMicros t).toMicros = t := by
  simp only [toMicros, ofMicros, Date.toDays_ofDays, microsPerSecond, secondsPerDay]
  omega

theorem isCivil_ofMicros {t : Int} (h : 0 ≤ (ofMicros t).date.year ∧ (ofMicros t).date.year ≤ 9999) :
    (ofMicros t).IsCivil where
  date := Date.isValid_ofDays _
  year := h
  second := by
    simp only [ofMicros, secondsPerDay]
    omega
  micro := by
    simp only [ofMicros, microsPerSecond]
    omega

theorem readRfc3339_ofMicros {t : Int} (h : 0 ≤ (ofMicros t).date.year ∧ (ofMicros t).date.year ≤ 9999) :
    readRfc3339 (ofMicros t).rfc3339 = some t := by
  rw [readRfc3339_rfc3339 (isCivil_ofMicros h), toMicros_ofMicros]

end SqlMapping.Moment
