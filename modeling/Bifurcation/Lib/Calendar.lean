import Mathlib

/-!
# The Gregorian calendar

The proleptic Gregorian calendar by day numbers: day 0 is 1 January 1970. Years and months are
found again from a day, and the months tile the days: every day lies in exactly one month, and a
month ends where the next one starts. Months are counted from 0.
-/

namespace Bifurcation.Calendar

/-! ## Years -/

/-- The number of the day on which a year starts. -/
def dayFromYear (y : Int) : Int :=
  365 * (y - 1970) + (y - 1969) / 4 - (y - 1901) / 100 + (y - 1601) / 400

def isLeapYear (y : Int) : Bool := y % 4 = 0 ∧ (y % 100 ≠ 0 ∨ y % 400 = 0)

/-- The year a day lies in. -/
def yearFromDay (d : Int) : Int :=
  let y := 1970 + d * 400 / 146097
  if d < dayFromYear y then y - 1 else if dayFromYear (y + 1) ≤ d then y + 1 else y

/-- The days of a year before its month `m`. -/
def daysBefore (leap : Bool) (m : ℕ) : Int :=
  ([0, 31, 59, 90, 120, 151, 181, 212, 243, 273, 304, 334].getD m 365) +
    if leap ∧ 2 ≤ m then 1 else 0

/-- The month a day lies in. -/
def monthFromDay (d : Int) : ℕ :=
  let y := yearFromDay d
  ((List.range 12).filter fun m => daysBefore (isLeapYear y) m ≤ d - dayFromYear y).length - 1

/-- The first day of a month. The month after the last one is the first of the next year. -/
def firstDay (y : Int) (m : ℕ) : Int := dayFromYear y + daysBefore (isLeapYear y) m

/-- A year has 365 days, or 366. -/
theorem dayFromYear_succ (y : Int) :
    dayFromYear (y + 1) = dayFromYear y + daysBefore (isLeapYear y) 12 := by
  by_cases hleap : y % 4 = 0 ∧ (y % 100 ≠ 0 ∨ y % 400 = 0)
  · have hbool : isLeapYear y = true := by simpa [isLeapYear] using hleap
    rw [hbool]
    simp only [dayFromYear, daysBefore, List.getD_eq_getElem?_getD]
    norm_num
    omega
  · have hbool : isLeapYear y = false := by simpa [isLeapYear] using hleap
    rw [hbool]
    simp only [dayFromYear, daysBefore, List.getD_eq_getElem?_getD]
    norm_num
    omega

theorem dayFromYear_mono {y z : Int} (h : y ≤ z) : dayFromYear y ≤ dayFromYear z := by
  unfold dayFromYear
  omega

/-- The year that is found contains the day. -/
theorem yearFromDay_spec (d : Int) :
    dayFromYear (yearFromDay d) ≤ d ∧ d < dayFromYear (yearFromDay d + 1) := by
  have hguess : dayFromYear (1970 + d * 400 / 146097 - 1) ≤ d ∧
      d < dayFromYear (1970 + d * 400 / 146097 + 2) := by
    unfold dayFromYear
    omega
  unfold yearFromDay
  dsimp only
  by_cases hlow : d < dayFromYear (1970 + d * 400 / 146097)
  · rw [if_pos hlow, sub_add_cancel]
    exact ⟨hguess.1, hlow⟩
  · rw [if_neg hlow]
    by_cases hhigh : dayFromYear (1970 + d * 400 / 146097 + 1) ≤ d
    · have hnext : 1970 + d * 400 / 146097 + 1 + 1 = 1970 + d * 400 / 146097 + 2 := by ring
      rw [if_pos hhigh, hnext]
      exact ⟨hhigh, hguess.2⟩
    · rw [if_neg hhigh]
      exact ⟨not_lt.1 hlow, not_le.1 hhigh⟩

theorem yearFromDay_unique {d y : Int} (hlow : dayFromYear y ≤ d) (hhigh : d < dayFromYear (y + 1)) :
    yearFromDay d = y := by
  obtain ⟨hlow', hhigh'⟩ := yearFromDay_spec d
  by_contra hne
  rcases lt_or_gt_of_ne hne with hlt | hgt
  · have hmono := dayFromYear_mono (show yearFromDay d + 1 ≤ y by omega)
    omega
  · have hmono := dayFromYear_mono (show y + 1 ≤ yearFromDay d by omega)
    omega

/-! ## Months -/

theorem daysBefore_lt {m n : ℕ} (leap : Bool) (hn : n ≤ 12) (h : m < n) :
    daysBefore leap m < daysBefore leap n := by
  have hall : ∀ leap : Bool, ∀ n < 13, ∀ m < n, daysBefore leap m < daysBefore leap n := by decide
  exact hall leap n (by omega) m h

theorem daysBefore_le {m n : ℕ} (leap : Bool) (hn : n ≤ 12) (h : m ≤ n) :
    daysBefore leap m ≤ daysBefore leap n := by
  rcases h.eq_or_lt with rfl | hlt
  · exact le_rfl
  · exact (daysBefore_lt leap hn hlt).le

/-- Every day of a year lies in a month. -/
theorem exists_month (leap : Bool) {r : Int} (hlow : 0 ≤ r) (hhigh : r < daysBefore leap 12) :
    ∃ m < 12, daysBefore leap m ≤ r ∧ r < daysBefore leap (m + 1) := by
  have hfind : ∀ n : ℕ, r < daysBefore leap n →
      ∃ m < n, daysBefore leap m ≤ r ∧ r < daysBefore leap (m + 1) := by
    intro n hn
    induction n with
    | zero =>
      have hzero : daysBefore leap 0 = 0 := by cases leap <;> rfl
      omega
    | succ n ih =>
      by_cases hlt : r < daysBefore leap n
      · obtain ⟨m, hm, hspec⟩ := ih hlt
        exact ⟨m, by omega, hspec⟩
      · exact ⟨n, by omega, by omega, hn⟩
  exact hfind 12 hhigh

/-- The months that have started by a day are counted. -/
theorem count_months (leap : Bool) {r : Int} {m : ℕ} (hm : m < 12) (hlow : daysBefore leap m ≤ r)
    (hhigh : r < daysBefore leap (m + 1)) :
    ((List.range 12).filter fun k => daysBefore leap k ≤ r).length = m + 1 := by
  have hcongr : ((List.range 12).filter fun k => decide (daysBefore leap k ≤ r)) =
      (List.range 12).filter fun k => decide (k ≤ m) := by
    refine List.filter_congr fun k hk => ?_
    rw [List.mem_range] at hk
    refine decide_eq_decide.2 ⟨fun hle => ?_, fun hle => ?_⟩
    · by_contra hgt
      have hmono := daysBefore_le leap (show k ≤ 12 by omega) (show m + 1 ≤ k by omega)
      omega
    · have hmono := daysBefore_le leap (show m ≤ 12 by omega) hle
      omega
  have hcount : ∀ m < 12, ((List.range 12).filter fun k => decide (k ≤ m)).length = m + 1 := by
    decide
  rw [hcongr, hcount m hm]

theorem firstDay_zero (y : Int) : firstDay y 0 = dayFromYear y := by
  have hzero : daysBefore (isLeapYear y) 0 = 0 := by cases isLeapYear y <;> rfl
  rw [firstDay, hzero, add_zero]

theorem firstDay_twelve (y : Int) : firstDay y 12 = dayFromYear (y + 1) := by
  rw [firstDay, dayFromYear_succ]

/-- The month that is found contains the day. -/
theorem monthFromDay_spec (d : Int) :
    monthFromDay d < 12 ∧ firstDay (yearFromDay d) (monthFromDay d) ≤ d ∧
      d < firstDay (yearFromDay d) (monthFromDay d + 1) := by
  obtain ⟨hlow, hhigh⟩ := yearFromDay_spec d
  rw [dayFromYear_succ] at hhigh
  obtain ⟨m, hm, hstart, hend⟩ := exists_month (isLeapYear (yearFromDay d))
    (show 0 ≤ d - dayFromYear (yearFromDay d) by omega) (by omega)
  have hmonth : monthFromDay d = m := by
    rw [monthFromDay, count_months _ hm hstart hend, Nat.add_sub_cancel]
  rw [hmonth, firstDay, firstDay]
  exact ⟨hm, by omega, by omega⟩

theorem firstDay_lt_succ (y : Int) {m : ℕ} (hm : m < 12) : firstDay y m < firstDay y (m + 1) := by
  have hlt := daysBefore_lt (isLeapYear y) (show m + 1 ≤ 12 by omega) (Nat.lt_succ_self m)
  unfold firstDay
  omega

/-- The month that contains a day is the one that is found. -/
theorem monthFromDay_unique {d y : Int} {m : ℕ} (hm : m < 12) (hlow : firstDay y m ≤ d)
    (hhigh : d < firstDay y (m + 1)) : yearFromDay d = y ∧ monthFromDay d = m := by
  have hfirst := daysBefore_le (isLeapYear y) (show m ≤ 12 by omega) (Nat.zero_le m)
  have hlast := daysBefore_le (isLeapYear y) le_rfl (show m + 1 ≤ 12 by omega)
  have hzero : daysBefore (isLeapYear y) 0 = 0 := by cases isLeapYear y <;> rfl
  unfold firstDay at hlow hhigh
  have hyear : yearFromDay d = y := by
    refine yearFromDay_unique (by omega) ?_
    rw [dayFromYear_succ]
    omega
  refine ⟨hyear, ?_⟩
  rw [monthFromDay, hyear, count_months _ hm (by omega) (by omega), Nat.add_sub_cancel]

/-- The first day of a month lies in it. -/
theorem monthFromDay_firstDay (y : Int) {m : ℕ} (hm : m < 12) :
    yearFromDay (firstDay y m) = y ∧ monthFromDay (firstDay y m) = m :=
  monthFromDay_unique hm le_rfl (firstDay_lt_succ y hm)

/-- A month lasts at least 28 days and at most 31. -/
theorem length_month (y : Int) {m : ℕ} (hm : m < 12) :
    firstDay y m + 28 ≤ firstDay y (m + 1) ∧ firstDay y (m + 1) ≤ firstDay y m + 31 := by
  have hall : ∀ leap : Bool, ∀ m < 12, daysBefore leap m + 28 ≤ daysBefore leap (m + 1) ∧
      daysBefore leap (m + 1) ≤ daysBefore leap m + 31 := by decide
  have hm' := hall (isLeapYear y) m hm
  unfold firstDay
  omega

end Bifurcation.Calendar
