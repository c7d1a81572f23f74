import SqlMapping.Calendar.Date
import Mathlib.Tactic.IntervalCases
import Mathlib.Tactic.Ring

/-!
# Dates of day counts

A count of days is split into eras, centuries, groups of four years, years that begin in March, and months.
`Date.toDays_ofDays` and `Date.isValid_ofDays`: every count is that of the date that `Date.ofDays`
gives, which is one of the calendar.
-/

namespace SqlMapping.Date

/-! ## Years of an era -/

theorem exists_century {d : Int} (hlow : 0 ≤ d) (hhigh : d < eraDays) :
    ∃ c r : Int, (0 ≤ c ∧ c ≤ 3) ∧ (0 ≤ r ∧ r ≤ 36524) ∧ (r = 36524 → c = 3) ∧ d = 36524 * c + r ∧
      d / 36524 - d / 146096 = c := by
  have hera : eraDays = 146097 := rfl
  rw [hera] at hhigh
  obtain hlt | rfl : d < 146096 ∨ d = 146096 := by omega
  · exact ⟨d / 36524, d % 36524, by omega, by omega, by omega, by omega, by omega⟩
  · exact ⟨3, 36524, by decide⟩

theorem exists_fourYears {r : Int} (hr : 0 ≤ r ∧ r ≤ 36524) :
    ∃ q s : Int, (0 ≤ q ∧ q ≤ 24) ∧ (0 ≤ s ∧ s ≤ 1460) ∧ r = 1461 * q + s :=
  ⟨r / 1461, r % 1461, by omega, by omega, by omega⟩

theorem exists_year {s : Int} (hs : 0 ≤ s ∧ s ≤ 1460) :
    ∃ k day : Int, (0 ≤ k ∧ k ≤ 3) ∧ (0 ≤ day ∧ day ≤ 365) ∧ (day = 365 → k = 3) ∧ s = 365 * k + day := by
  obtain hlt | rfl : s < 1460 ∨ s = 1460 := by omega
  · exact ⟨s / 365, s % 365, by omega, by omega, by omega, by omega⟩
  · exact ⟨3, 365, by decide⟩

theorem yearOfEra_eq {c q k day : Int} (hc : 0 ≤ c ∧ c ≤ 3) (hq : 0 ≤ q ∧ q ≤ 24) (hk : 0 ≤ k ∧ k ≤ 3)
    (hday : 0 ≤ day ∧ day ≤ 365) (hlast : day = 365 → k = 3) {d : Int}
    (hd : d = 36524 * c + (1461 * q + (365 * k + day))) : (d - d / 1460 + c) / 365 = 100 * c + 4 * q + k := by
  -- a century has 24 days more than 25 times 1460
  have hdiv : d / 1460 = 25 * c + q + (24 * c + q + 365 * k + day) / 1460 := by omega
  generalize he : (24 * c + q + 365 * k + day) / 1460 = e at hdiv
  have hzero : e = 0 ∨ e = 1 := by omega
  have hone : e = 1 → k = 3 ∧ 1 ≤ day := by omega
  have hsum : d - d / 1460 + c = 365 * (100 * c + 4 * q + k) + (day - e) := by omega
  omega

theorem leapDays_eq {c q k : Int} (hq : 0 ≤ q ∧ q ≤ 24) (hk : 0 ≤ k ∧ k ≤ 3) :
    (100 * c + 4 * q + k) / 4 - (100 * c + 4 * q + k) / 100 = 24 * c + q := by
  omega

/-- The last of 366 days of the year `100 * c + 4 * q + 3`, counted from March, is a leap day. -/
theorem leap_of_last {c q : Int} (hq : 0 ≤ q ∧ q ≤ 24) (hcentury : q = 24 → c = 3) :
    (100 * c + 4 * q + 3 + 1) % 4 = 0 ∧
      ((100 * c + 4 * q + 3 + 1) % 100 = 0 → (100 * c + 4 * q + 3 + 1) % 400 = 0) := by
  refine ⟨by omega, fun h => ?_⟩
  have h24 : q = 24 := by omega
  rw [h24, hcentury h24]
  rfl

/-- Every day of an era lies in one of its years, each of which begins in March. -/
theorem exists_yearOfEra {d : Int} (hlow : 0 ≤ d) (hhigh : d < eraDays) :
    ∃ year day : Int, (0 ≤ year ∧ year ≤ 399) ∧ (0 ≤ day ∧ day ≤ 365) ∧
      (day = 365 → (year + 1) % 4 = 0 ∧ ((year + 1) % 100 = 0 → (year + 1) % 400 = 0)) ∧
      (d - d / 1460 + d / 36524 - d / 146096) / 365 = year ∧ d = year * 365 + year / 4 - year / 100 + day := by
  obtain ⟨c, r, hc, hr, hfull, hd, hcentury⟩ := exists_century hlow hhigh
  obtain ⟨q, s, hq, hs, rfl⟩ := exists_fourYears hr
  obtain ⟨k, day, hk, hday, hlast, rfl⟩ := exists_year hs
  have hyear : (d - d / 1460 + d / 36524 - d / 146096) / 365 = 100 * c + 4 * q + k := by
    rw [Int.add_sub_assoc, hcentury]
    exact yearOfEra_eq hc hq hk hday hlast hd
  have hbound : 0 ≤ 100 * c + 4 * q + k ∧ 100 * c + 4 * q + k ≤ 399 := by
    clear hd hcentury hyear
    omega
  refine ⟨100 * c + 4 * q + k, day, hbound, hday, fun hend => ?_, hyear, ?_⟩
  · obtain rfl := hlast hend
    exact leap_of_last hq fun h24 => hfull (by rw [h24, hend]; rfl)
  · rw [Int.add_sub_assoc, leapDays_eq hq hk, hd]
    ring

/-! ## Years that begin in March -/

/-- The date of a day, counted from 0, of a year that begins in March. -/
def ofMarchYear (year day : Int) : Date :=
  let march := (5 * day + 2) / 153
  let month := if march < 10 then march + 3 else march - 9
  ⟨year + (if month ≤ 2 then 1 else 0), month.toNat, (day - (153 * march + 2) / 5 + 1).toNat⟩

theorem exists_ofMarchYear (year : Int) {day : Int} (hlow : 0 ≤ day) (hhigh : day ≤ 365) :
    ∃ month dayOfMonth : Nat, ofMarchYear year day = ⟨if month ≤ 2 then year + 1 else year, month, dayOfMonth⟩ ∧
      1 ≤ month ∧ month ≤ 12 ∧ 1 ≤ dayOfMonth ∧
      (dayOfMonth : Int) = day - ((153 * ((month + 9) % 12) + 2) / 5 : Nat) + 1 ∧
      (5 * day + 2) / 153 = ((month + 9) % 12 : Nat) := by
  obtain ⟨m, hm⟩ : ∃ m : Nat, (5 * day + 2) / 153 = m := ⟨((5 * day + 2) / 153).toNat, by omega⟩
  have hbegin : (153 * (m : Int) + 2) / 5 ≤ day := by omega
  unfold ofMarchYear
  simp only [hm]
  obtain hmarch | hmarch := Nat.lt_or_ge m 10
  · have hback : (m + 3 + 9) % 12 = m := by omega
    refine ⟨m + 3, (day - (153 * (m : Int) + 2) / 5 + 1).toNat, ?_, by omega, by omega, by omega, by omega, by omega⟩
    have hmonth : (if (m : Int) < 10 then (m : Int) + 3 else m - 9) = (m + 3 : Nat) := by
      rw [if_pos (by omega)]
      rfl
    rw [hmonth, if_neg (by omega), if_neg (by omega), Int.add_zero, Int.toNat_natCast]
  · have hm' : m ≤ 11 := by omega
    have hback : (m - 9 + 9) % 12 = m := by omega
    refine ⟨m - 9, (day - (153 * (m : Int) + 2) / 5 + 1).toNat, ?_, by omega, by omega, by omega, by omega, by omega⟩
    have hmonth : (if (m : Int) < 10 then (m : Int) + 3 else m - 9) = (m - 9 : Nat) := by
      rw [if_neg (by omega)]
      omega
    rw [hmonth, if_pos (by omega), if_pos (by omega), Int.toNat_natCast]

theorem toDays_ofMarchYear (year : Int) {day : Int} (hlow : 0 ≤ day) (hhigh : day ≤ 365) :
    (ofMarchYear year day).toDays =
      year / 400 * eraDays + (year % 400 * 365 + year % 400 / 4 - year % 400 / 100 + day) - epochOffset := by
  obtain ⟨month, dayOfMonth, heq, -, -, -, hday, -⟩ := exists_ofMarchYear year hlow hhigh
  have hyear : (if month ≤ 2 then (if month ≤ 2 then year + 1 else year) - 1 else if month ≤ 2 then year + 1 else year) =
      year := by split <;> omega
  rw [heq, toDays]
  dsimp only
  rw [hyear, hday]
  omega

/-! ## Months -/

theorem isLeapYear_iff (y : Int) : isLeapYear y = true ↔ y % 4 = 0 ∧ (y % 100 = 0 → y % 400 = 0) := by
  simp only [isLeapYear, Bool.and_eq_true, Bool.or_eq_true, beq_iff_eq, bne_iff_ne, ne_eq]
  rw [← Decidable.imp_iff_not_or]

theorem daysInMonth_two_of_leap {y : Int} (h : isLeapYear y = true) : daysInMonth y 2 = 29 := if_pos h

theorem le_daysInMonth_two (y : Int) : 28 ≤ daysInMonth y 2 := by
  show 28 ≤ if isLeapYear y then 29 else 28
  split <;> omega

theorem daysInMonth_le (y : Int) (m : Nat) : daysInMonth y m ≤ 31 := by
  unfold daysInMonth
  split
  · split <;> decide
  all_goals decide

/-- A year that begins in March has a last day in February of a leap year alone. -/
theorem isValid_ofMarchYear (year : Int) {day : Int} (hlow : 0 ≤ day) (hhigh : day ≤ 365)
    (hleap : day = 365 → isLeapYear (year + 1) = true) : (ofMarchYear year day).IsValid := by
  obtain ⟨month, dayOfMonth, heq, hmonth, hmonth', hday, hday', hmarch⟩ := exists_ofMarchYear year hlow hhigh
  rw [heq]
  refine ⟨hmonth, hmonth', hday, ?_⟩
  dsimp only
  obtain rfl | hother := eq_or_ne month 2
  · have hyear : (if 2 ≤ 2 then year + 1 else year) = year + 1 := rfl
    rw [hyear]
    obtain rfl | hend := eq_or_ne day 365
    · rw [daysInMonth_two_of_leap (hleap rfl)]
      omega
    · have := le_daysInMonth_two (year + 1)
      omega
  · interval_cases month
    case «2» => exact absurd rfl hother
    all_goals
      simp only [daysInMonth]
      omega

/-! ## Counts of days -/

/-- Every number of days lies in a year that begins in March. -/
theorem exists_marchYear (n : Int) : ∃ year day : Int, (0 ≤ day ∧ day ≤ 365) ∧
    (day = 365 → isLeapYear (year + 1) = true) ∧ ofDays n = ofMarchYear year day ∧
    n = year / 400 * eraDays + (year % 400 * 365 + year % 400 / 4 - year % 400 / 100 + day) - epochOffset := by
  have hpos : 0 < eraDays := by decide
  obtain ⟨year, day, hyear, hday, hleap, hformula, hd⟩ :=
    exists_yearOfEra (Int.emod_nonneg (n + epochOffset) hpos.ne') (Int.emod_lt_of_pos (n + epochOffset) hpos)
  have hsplit := Int.mul_ediv_add_emod (n + epochOffset) eraDays
  generalize hera : (n + epochOffset) / eraDays = era at hsplit
  generalize hrest : (n + epochOffset) % eraDays = d at hformula hd hsplit
  have hmod : (year + era * 400) % 400 = year := by clear hd hformula hsplit hleap; omega
  have hdiv : (year + era * 400) / 400 = era := by clear hd hformula hsplit hleap; omega
  refine ⟨year + era * 400, day, hday, fun hend => ?_, ?_, ?_⟩
  · rw [isLeapYear_iff]
    obtain ⟨hfour, hhundred⟩ := hleap hend
    clear hd hformula hsplit hmod hdiv
    omega
  · have hdayOfYear : d - (365 * year + year / 4 - year / 100) = day := by clear hformula; omega
    simp only [ofDays, ofMarchYear, hera, hrest, hformula, hdayOfYear]
  · rw [hmod, hdiv, ← hd, Int.mul_comm, hsplit, Int.add_sub_cancel]

theorem toDays_ofDays (n : Int) : (ofDays n).toDays = n := by
  obtain ⟨year, day, hday, -, hdate, hn⟩ := exists_marchYear n
  rw [hdate, toDays_ofMarchYear year hday.1 hday.2, ← hn]

theorem isValid_ofDays (n : Int) : (ofDays n).IsValid := by
  obtain ⟨year, day, hday, hleap, hdate, -⟩ := exists_marchYear n
  rw [hdate]
  exact isValid_ofMarchYear year hday.1 hday.2 hleap

end SqlMapping.Date
