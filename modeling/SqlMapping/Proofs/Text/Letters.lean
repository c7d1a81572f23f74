import Mathlib
import SqlMapping.Text.Ascii

/-!
# Letters and their case

Lower case changes letters into letters and nothing else. `toLower_eq_iff`: a character that is no letter is the lower
case of itself alone.
-/

namespace SqlMapping

theorem toLower_of_isAlpha {q : Char} (hq : q.isAlpha = false) : q.toLower = q := by
  simp only [Char.isAlpha, Bool.or_eq_false_iff] at hq
  exact Char.toLower_eq_of_not_isUpper (by simp [hq])

theorem eq_of_toLower_eq {q c : Char} (hq : q.isAlpha = false) (h : q.toLower = c.toLower) : q = c := by
  have hc : c.isAlpha = false := by
    rw [← hq, ← Char.isLower_toLower_eq_isAlpha, ← Char.isLower_toLower_eq_isAlpha, h]
  rwa [toLower_of_isAlpha hq, toLower_of_isAlpha hc] at h

theorem toLower_eq_iff {q c : Char} (hq : q.isAlpha = false) : c.toLower = q ↔ c = q := by
  refine ⟨fun h => ?_, fun h => ?_⟩
  · rw [← toLower_of_isAlpha hq] at h
    exact (eq_of_toLower_eq hq h.symm).symm
  · rw [h, toLower_of_isAlpha hq]

theorem foldCase_foldCase (s : String) : foldCase (foldCase s) = foldCase s := by
  apply String.ext
  simp [toList_foldCase]

end SqlMapping
