import Bifurcation.Panel.Schema
import Bifurcation.Lib.Calendar
import Bifurcation.Lib.Grouping

/-!
# Calendar buckets in Shanghai time

`usage/time.ts` and `rollupMinutes` of `usage/store.ts`: where the minute, the day and the month
of a time start and end, how the bytes of an interval are split over the buckets it touches, and
how minutes are rolled up to days and months.

**Dates.** `Date` is the proleptic Gregorian calendar of ECMAScript: a time value more than
`8.64e15` ms away from the epoch is no date, and `Date.UTC` reads the years 0 to 99 as 1900 to
1999. A computation on an invalid date gives `NaN`, here `none`. On the times of `Date`, and so on
all times a request can carry past the checks, the arithmetic on doubles is exact: the sums stay
below `2^53`, and a quotient is far enough from the next integer not to be rounded up to it. The
integers here say nothing about times beyond that.

**Tiling.** The buckets of a grain tile the times from the year 100 on: every time lies in exactly
one bucket, which ends where the next one starts. For the months this needs the end of the month
to be a date, so it holds up to `dateEnd`, the last month start that has a month after it.

Main results: `bucket_spec` (the buckets tile), `bucketStart_minute` and `bucketStart_day` (a
minute lies in one day, and a day in one month), `buckets_partition` (both, from the epoch on).
-/

namespace Bifurcation.Panel

open Calendar

/-- `SHANGHAI_OFFSET`. -/
def shanghaiOffset : Int := 8 * 60 * 60 * 1000

/-- `new Date(t)`: the time value, unless it is out of range. -/
def timeClip (t : Int) : Option Int := if t.natAbs ≤ 8640000000000000 then some t else none

/-- `Date.UTC(year, month, 1)`. -/
def firstOfMonth (year : Int) (month : ℕ) : Option Int :=
  let year := if 0 ≤ year ∧ year ≤ 99 then 1900 + year else year
  timeClip (firstDay year month * dayMilliseconds)

def monthStart (time : Int) : Option Int := do
  let date ← timeClip (time + shanghaiOffset)
  let day := date / dayMilliseconds
  let start ← firstOfMonth (yearFromDay day) (monthFromDay day)
  return start - shanghaiOffset

/-- `padStart(2, "0")` of a month number. -/
def padMonth (m : ℕ) : String := if m < 10 then "0" ++ toString m else toString m

def monthPeriod (time : Int) : String :=
  match timeClip (time + shanghaiOffset) with
  | some date =>
    let day := date / dayMilliseconds
    toString (yearFromDay day) ++ "-" ++ padMonth (monthFromDay day + 1)
  | none => "NaN-NaN"

/-- The start of the bucket of a fixed size a time lies in: `Math.floor` of a quotient of doubles,
which is exact on the times of `Date`. -/
def sizedStart (size time : Int) : Int := (time + shanghaiOffset) / size * size - shanghaiOffset

def bucketStart (time : Int) : Grain → Option Int
  | .minute => some (sizedStart 60000 time)
  | .day => some (sizedStart dayMilliseconds time)
  | .month => monthStart time

def nextBucket (start : Int) : Grain → Option Int
  | .minute => some (start + 60000)
  | .day => some (start + dayMilliseconds)
  | .month => do
    let date ← timeClip (start + shanghaiOffset)
    let day := date / dayMilliseconds
    -- Month 12 is the January of the next year.
    let next ← firstOfMonth (yearFromDay day) (monthFromDay day + 1)
    return next - shanghaiOffset

/-! ## Splitting and rolling up -/

/-- The bytes of one bucket: the source's `{ start, bytes }`. A `NaN` start is `none`. -/
structure Share where
  start : Option Int
  bytes : Int
deriving DecidableEq

/-- The loop of `splitBytes`, from the bucket `current` on. `BigInt` throws a `RangeError` on the
`NaN` of a bucket without an end, and so does a division by `0n`: this is `none`. The fuel bounds
the number of buckets. -/
def sharesFrom (start end_ bytes : Int) (grain : Grain) : ℕ → Int → Option (List Share)
  | 0, _ => some []
  | n + 1, current =>
    if current < end_ then do
      let next ← nextBucket current grain
      let overlap := min end_ next - max start current
      if end_ - start = 0 then none
      else
        let rest ← sharesFrom start end_ bytes grain n next
        return ⟨some current, (bytes * overlap).tdiv (end_ - start)⟩ :: rest
    else some []

/-- Deterministic integer remainder distribution, preserving the exact source total. -/
def distribute (remainder : Int) : List Share → List Share
  | [] => []
  | bucket :: buckets =>
    if remainder = 0 then bucket :: buckets
    else { bucket with bytes := bucket.bytes + 1 } :: distribute (remainder - 1) buckets

/-- The sum of the bytes of some buckets. -/
def shareTotal (buckets : List Share) : Int := (buckets.map Share.bytes).sum

def splitBytes (start end_ bytes : Int) (grain : Grain) : Option (List Share) :=
  match bucketStart start grain with
  -- `NaN < end` is false: no bucket.
  | none => some []
  | some first => do
    -- A bucket lasts a minute at least.
    let buckets ← sharesFrom start end_ bytes grain ((end_ - first) / 60000 + 1).toNat first
    return distribute (bytes - shareTotal buckets) buckets

/-- The bucket a minute is counted in. -/
def Share.bucketOf (minute : Share) (grain : Grain) : Option Int :=
  minute.start.bind fun time => bucketStart time grain

def rollupMinutes (minutes : List Share) : Grain → List Share
  | .minute => minutes
  | grain =>
    (Grouping.group (fun minute => minute.bucketOf grain) Share.bytes minutes).map fun bucket =>
      ⟨bucket.1, bucket.2⟩

/-! ## The buckets tile the times -/

/-- The first month start that is a date. -/
def firstDate : Int := -8639999078400000

/-- The first of January of the years 0 and 100. Between them `Date.UTC` reads a year as one of
the 20th century. -/
def yearZero : Int := -62167248000000

def dateStart : Int := -59011488000000

/-- The first of September 275760, the last month start that is followed by another one. -/
def dateEnd : Int := 8639998934400000

/-- The last date. -/
def lastDate : Int := 8639999971200000

theorem timeClip_of_le {t : Int} (hlow : -8640000000000000 ≤ t) (hhigh : t ≤ 8640000000000000) :
    timeClip t = some t := by
  rw [timeClip, if_pos (by omega)]

/-- The days of the month starts named above. -/
theorem firstDay_dates : firstDay (-271821) 4 = -99999989 ∧ firstDay 0 0 = -719528 ∧
    firstDay 100 0 = -683003 ∧ firstDay 275760 8 = 99999988 := by decide

/-- A month start lies in no month but its own. -/
theorem month_boundary (y y' : Int) {m m' : ℕ} (hm : m < 12) (hm' : m' < 12) :
    firstDay y' m' ≤ firstDay y m ∨ firstDay y (m + 1) ≤ firstDay y' m' := by
  by_contra hstraddle
  rw [not_or] at hstraddle
  obtain ⟨hyear, hmonth⟩ := monthFromDay_unique hm (not_le.1 hstraddle.1).le
    (not_le.1 hstraddle.2)
  obtain ⟨hyear', hmonth'⟩ := monthFromDay_firstDay y' hm'
  have hsame : firstDay y m = firstDay y' m' := by rw [← hyear, ← hmonth, hyear', hmonth']
  exact hstraddle.1 hsame.ge

theorem firstOfMonth_eq {y : Int} {m : ℕ} (hy : y < 0 ∨ 100 ≤ y) (hlow : -100000000 ≤ firstDay y m)
    (hhigh : firstDay y m ≤ 100000000) :
    firstOfMonth y m = some (firstDay y m * dayMilliseconds) := by
  have hyear : ¬ (0 ≤ y ∧ y ≤ 99) := by omega
  rw [firstOfMonth, if_neg hyear]
  exact timeClip_of_le (by unfold dayMilliseconds; omega) (by unfold dayMilliseconds; omega)

/-- The month of a time, as a range of days between two month starts. -/
theorem exists_month_of_time {t : Int} (hlow : firstDate ≤ t) (hhigh : t < dateEnd) :
    ∃ y m, yearFromDay ((t + shanghaiOffset) / dayMilliseconds) = y ∧
      monthFromDay ((t + shanghaiOffset) / dayMilliseconds) = m ∧ m < 12 ∧
      -99999989 ≤ firstDay y m ∧ firstDay y (m + 1) ≤ 99999988 ∧
      firstDay y m * dayMilliseconds ≤ t + shanghaiOffset ∧
      t + shanghaiOffset < firstDay y (m + 1) * dayMilliseconds := by
  unfold firstDate at hlow
  unfold shanghaiOffset dateEnd dayMilliseconds at *
  generalize hday : (t + 8 * 60 * 60 * 1000) / (24 * 60 * 60 * 1000) = day
  obtain ⟨hm, hstart, hend⟩ := monthFromDay_spec day
  obtain ⟨hfirst, -, -, hlast⟩ := firstDay_dates
  have hlow' := month_boundary (yearFromDay day) (-271821) hm (show 4 < 12 by norm_num)
  have hhigh' := month_boundary (yearFromDay day) 275760 hm (show 8 < 12 by norm_num)
  rw [hfirst] at hlow'
  rw [hlast] at hhigh'
  exact ⟨_, _, rfl, rfl, hm, by omega, by omega, by omega, by omega⟩

/-- From the year 100 on, and before the year 0, a year is read as it is. -/
theorem year_of_time {t : Int} :
    (dateStart ≤ t → 100 ≤ yearFromDay ((t + shanghaiOffset) / dayMilliseconds)) ∧
      (t < yearZero → yearFromDay ((t + shanghaiOffset) / dayMilliseconds) < 0) := by
  unfold dateStart yearZero shanghaiOffset dayMilliseconds
  generalize hday : (t + 8 * 60 * 60 * 1000) / (24 * 60 * 60 * 1000) = day
  obtain ⟨hlow, hhigh⟩ := yearFromDay_spec day
  obtain ⟨-, hzero, hhundred, -⟩ := firstDay_dates
  rw [firstDay_zero] at hzero hhundred
  constructor
  · intro ht
    by_contra hlt
    have hmono := dayFromYear_mono (show yearFromDay day + 1 ≤ 100 by omega)
    omega
  · intro ht
    by_contra hge
    have hmono := dayFromYear_mono (show 0 ≤ yearFromDay day by omega)
    omega

section Month

variable {y : Int} {m : ℕ}

/-- The times of a month have its start as their bucket. -/
theorem monthStart_eq {t : Int} (hy : y < 0 ∨ 100 ≤ y) (hm : m < 12)
    (hfirst : -99999989 ≤ firstDay y m) (hlast : firstDay y (m + 1) ≤ 99999988)
    (hlow : firstDay y m * dayMilliseconds ≤ t + shanghaiOffset)
    (hhigh : t + shanghaiOffset < firstDay y (m + 1) * dayMilliseconds) :
    monthStart t = some (firstDay y m * dayMilliseconds - shanghaiOffset) := by
  have hday : firstDay y m ≤ (t + shanghaiOffset) / dayMilliseconds ∧
      (t + shanghaiOffset) / dayMilliseconds < firstDay y (m + 1) := by
    unfold dayMilliseconds at *
    omega
  obtain ⟨hyear, hmonth⟩ := monthFromDay_unique hm hday.1 hday.2
  have hlt := firstDay_lt_succ y hm
  have hclip : timeClip (t + shanghaiOffset) = some (t + shanghaiOffset) :=
    timeClip_of_le (by unfold dayMilliseconds at *; omega) (by unfold dayMilliseconds at *; omega)
  simp only [monthStart, hclip, Option.bind_eq_bind, Option.bind_some, hyear, hmonth,
    firstOfMonth_eq hy (show -100000000 ≤ firstDay y m by omega)
      (show firstDay y m ≤ 100000000 by omega), Option.pure_def]

/-- A month ends where the next one starts. -/
theorem nextBucket_month (hy : y < 0 ∨ 100 ≤ y) (hm : m < 12)
    (hfirst : -99999989 ≤ firstDay y m) (hlast : firstDay y (m + 1) ≤ 99999988) :
    nextBucket (firstDay y m * dayMilliseconds - shanghaiOffset) .month =
      some (firstDay y (m + 1) * dayMilliseconds - shanghaiOffset) := by
  have hlt := firstDay_lt_succ y hm
  have hclip : timeClip (firstDay y m * dayMilliseconds) =
      some (firstDay y m * dayMilliseconds) :=
    timeClip_of_le (by unfold dayMilliseconds; omega) (by unfold dayMilliseconds; omega)
  have hday : firstDay y m * dayMilliseconds / dayMilliseconds = firstDay y m :=
    Int.mul_ediv_cancel _ (by decide)
  obtain ⟨hyear, hmonth⟩ := monthFromDay_firstDay y hm
  simp only [nextBucket, sub_add_cancel, hclip, Option.bind_eq_bind, Option.bind_some, hday, hyear,
    hmonth, firstOfMonth_eq hy (show -100000000 ≤ firstDay y (m + 1) by omega)
      (show firstDay y (m + 1) ≤ 100000000 by omega), Option.pure_def]

end Month

/-- The bucket `[b, n)` of a grain: every time in it has `b` as its bucket start. -/
structure Bucket (grain : Grain) (b n : Int) : Prop where
  next : nextBucket b grain = some n
  /-- A bucket lasts a minute at least. -/
  long : b + 60000 ≤ n
  start : ∀ t, b ≤ t → t < n → bucketStart t grain = some b

/-- A month whose start and end are dates is a bucket. -/
theorem bucket_month {y : Int} {m : ℕ} (hy : y < 0 ∨ 100 ≤ y) (hm : m < 12)
    (hfirst : -99999989 ≤ firstDay y m) (hlast : firstDay y (m + 1) ≤ 99999988) :
    Bucket .month (firstDay y m * dayMilliseconds - shanghaiOffset)
      (firstDay y (m + 1) * dayMilliseconds - shanghaiOffset) := by
  have hlen := (length_month y hm).1
  refine ⟨nextBucket_month hy hm hfirst hlast, ?_, fun t hb hn => ?_⟩
  · unfold dayMilliseconds
    omega
  · exact monthStart_eq hy hm hfirst hlast (by omega) (by omega)

/-- **Every time lies in a bucket.** Only the months have a last one. -/
theorem bucket_spec {t : Int} (grain : Grain) (hlow : dateStart ≤ t)
    (hdate : grain = .month → t < dateEnd) :
    ∃ b n, Bucket grain b n ∧ dateStart ≤ b ∧ b ≤ t ∧ t < n := by
  cases grain with
  | minute =>
    refine ⟨sizedStart 60000 t, sizedStart 60000 t + 60000, ⟨rfl, le_rfl, fun t' hb hn => ?_⟩, ?_⟩
    · show some (sizedStart 60000 t') = _
      unfold sizedStart at hb hn ⊢
      congr 1
      omega
    · unfold dateStart at hlow ⊢
      unfold sizedStart shanghaiOffset at *
      omega
  | day =>
    refine ⟨sizedStart dayMilliseconds t, sizedStart dayMilliseconds t + dayMilliseconds,
      ⟨rfl, ?_, fun t' hb hn => ?_⟩, ?_⟩
    · unfold dayMilliseconds
      omega
    · show some (sizedStart dayMilliseconds t') = _
      unfold sizedStart dayMilliseconds at *
      congr 1
      omega
    · unfold dateStart at hlow ⊢
      unfold sizedStart shanghaiOffset dayMilliseconds at *
      omega
  | month =>
    obtain ⟨y, m, hyear, -, hm, hfirst, hlast, hstart, hend⟩ := exists_month_of_time
      (show firstDate ≤ t by unfold firstDate; unfold dateStart at hlow; omega) (hdate rfl)
    have hy := year_of_time.1 hlow
    rw [hyear] at hy
    refine ⟨_, _, bucket_month (.inr hy) hm hfirst hlast, ?_, by omega, by omega⟩
    have hboundary := month_boundary y 100 hm (show 0 < 12 by norm_num)
    rw [firstDay_dates.2.2.1] at hboundary
    unfold dateStart shanghaiOffset dayMilliseconds at *
    omega

/-- From `dateEnd` on the months are `NaN`, or the one that starts there. -/
theorem monthStart_late {t : Int} (h : dateEnd ≤ t) :
    monthStart t = if t ≤ lastDate then some dateEnd else none := by
  unfold dateEnd at h
  by_cases hclip : t ≤ lastDate
  · have hday : firstDay 275760 8 ≤ (t + shanghaiOffset) / dayMilliseconds ∧
        (t + shanghaiOffset) / dayMilliseconds < firstDay 275760 9 := by
      have hnext : firstDay 275760 9 = 100000018 := by decide
      rw [firstDay_dates.2.2.2, hnext]
      unfold lastDate at hclip
      unfold shanghaiOffset dayMilliseconds
      omega
    obtain ⟨hyear, hmonth⟩ := monthFromDay_unique (by norm_num) hday.1 hday.2
    have hdate : timeClip (t + shanghaiOffset) = some (t + shanghaiOffset) :=
      timeClip_of_le (by unfold shanghaiOffset; omega)
        (by unfold lastDate at hclip; unfold shanghaiOffset; omega)
    have hfirst := firstOfMonth_eq (show (275760 : Int) < 0 ∨ 100 ≤ (275760 : Int) by decide)
      (show -100000000 ≤ firstDay 275760 8 by rw [firstDay_dates.2.2.2]; decide)
      (show firstDay 275760 8 ≤ 100000000 by rw [firstDay_dates.2.2.2]; decide)
    simp only [monthStart, hdate, Option.bind_eq_bind, Option.bind_some, hyear, hmonth, hfirst,
      Option.pure_def, if_pos hclip, firstDay_dates.2.2.2]
    rfl
  · have hdate : timeClip (t + shanghaiOffset) = none := by
      unfold lastDate at hclip
      unfold shanghaiOffset
      rw [timeClip, if_neg (by omega)]
    simp only [monthStart, hdate, Option.bind_eq_bind, Option.bind_none, if_neg hclip]

/-- The times before the first month start have no month. -/
theorem monthStart_early {t : Int} (h : t < firstDate) : monthStart t = none := by
  unfold firstDate at h
  by_cases hclip : -8640000000000000 ≤ t + shanghaiOffset
  · have hapril : firstDay (-271821) 3 = -100000019 := by decide
    have hday : firstDay (-271821) 3 ≤ (t + shanghaiOffset) / dayMilliseconds ∧
        (t + shanghaiOffset) / dayMilliseconds < firstDay (-271821) 4 := by
      rw [hapril, firstDay_dates.1]
      unfold shanghaiOffset dayMilliseconds at *
      omega
    obtain ⟨hyear, hmonth⟩ := monthFromDay_unique (by norm_num) hday.1 hday.2
    have hdate : timeClip (t + shanghaiOffset) = some (t + shanghaiOffset) :=
      timeClip_of_le hclip (by unfold shanghaiOffset; omega)
    have hfirst : firstOfMonth (-271821) 3 = none := by decide
    simp only [monthStart, hdate, Option.bind_eq_bind, Option.bind_some, hyear, hmonth, hfirst,
      Option.bind_none]
  · have hdate : timeClip (t + shanghaiOffset) = none := by
      rw [timeClip, if_neg (by omega)]
    simp only [monthStart, hdate, Option.bind_eq_bind, Option.bind_none]

/-- The month a clock reads in the years 0 to 99 is one of the 20th century. -/
theorem monthStart_misread {t : Int} (hlow : yearZero ≤ t) (hhigh : t < dateStart) :
    ∃ b n, monthStart t = some b ∧ Bucket .month b n ∧ dateStart ≤ b ∧
      t + 32 * dayMilliseconds < b := by
  obtain ⟨y, m, hyear, hmonth, hm, -, -, -, -⟩ := exists_month_of_time
    (show firstDate ≤ t by unfold firstDate; unfold yearZero at hlow; omega)
    (show t < dateEnd by unfold dateEnd; unfold dateStart at hhigh; omega)
  have hy : 0 ≤ y ∧ y ≤ 99 := by
    obtain ⟨hfrom, hto⟩ := yearFromDay_spec ((t + shanghaiOffset) / dayMilliseconds)
    rw [hyear] at hfrom hto
    obtain ⟨-, hzero, hhundred, -⟩ := firstDay_dates
    rw [firstDay_zero] at hzero hhundred
    unfold yearZero at hlow
    unfold dateStart at hhigh
    unfold shanghaiOffset dayMilliseconds at hfrom hto
    constructor
    · by_contra hlt
      have hmono := dayFromYear_mono (show y + 1 ≤ 0 by omega)
      omega
    · by_contra hgt
      have hmono := dayFromYear_mono (show 100 ≤ y by omega)
      omega
  have hfirst : -25567 ≤ firstDay (1900 + y) m ∧ firstDay (1900 + y) (m + 1) ≤ 10957 := by
    have hlow' := month_boundary (1900 + y) 1900 hm (show 0 < 12 by norm_num)
    have hhigh' := month_boundary (1900 + y) 2000 hm (show 0 < 12 by norm_num)
    have hlen := firstDay_lt_succ (1900 + y) hm
    have hmono := dayFromYear_mono (show 1900 ≤ 1900 + y by omega)
    have hmono' := dayFromYear_mono (show 1900 + y + 1 ≤ 2000 by omega)
    have hstart := daysBefore_le (isLeapYear (1900 + y)) hm.le (Nat.zero_le m)
    have hzero := firstDay_zero (1900 + y)
    have hend := daysBefore_le (isLeapYear (1900 + y)) le_rfl (show m + 1 ≤ 12 by omega)
    have hlast := firstDay_twelve (1900 + y)
    have hcentury : dayFromYear 1900 = -25567 ∧ dayFromYear 2000 = 10957 := by decide
    unfold firstDay at *
    omega
  have hlt := firstDay_lt_succ (1900 + y) hm
  refine ⟨_, _, ?_, bucket_month (y := 1900 + y) (.inr (by omega)) hm (by omega) (by omega), ?_, ?_⟩
  · have hdate : timeClip (t + shanghaiOffset) = some (t + shanghaiOffset) := by
      unfold yearZero at hlow
      unfold dateStart at hhigh
      exact timeClip_of_le (by unfold shanghaiOffset; omega) (by unfold shanghaiOffset; omega)
    have hmisread : firstOfMonth y m = some (firstDay (1900 + y) m * dayMilliseconds) := by
      rw [firstOfMonth, if_pos hy]
      exact timeClip_of_le (by unfold dayMilliseconds; omega) (by unfold dayMilliseconds; omega)
    simp only [monthStart, hdate, Option.bind_eq_bind, Option.bind_some, hyear, hmonth, hmisread,
      Option.pure_def]
  · unfold dateStart shanghaiOffset dayMilliseconds
    omega
  · unfold dateStart at hhigh
    unfold shanghaiOffset dayMilliseconds
    omega

/-- What the month of a clock can be. -/
inductive ClockMonth (now : Int) : Prop
  | invalid (start : monthStart now = none) (out : now < firstDate ∨ lastDate < now)
  | month {b n : Int} (bucket : Bucket .month b n) (low : firstDate ≤ b) (le : b ≤ now)
      (lt : now < n) (high : n ≤ dateEnd) (read : n ≤ yearZero ∨ dateStart ≤ b)
      (days : b + 28 * dayMilliseconds ≤ n ∧ n ≤ b + 31 * dayMilliseconds)
  | misread {b n : Int} (start : monthStart now = some b) (bucket : Bucket .month b n)
      (low : dateStart ≤ b) (late : now + 32 * dayMilliseconds < b) (from_ : yearZero ≤ now)
      (to_ : now < dateStart)
  | last (start : monthStart now = some dateEnd) (low : dateEnd ≤ now) (high : now ≤ lastDate)

theorem clockMonth (now : Int) : ClockMonth now := by
  by_cases hearly : now < firstDate
  · exact .invalid (monthStart_early hearly) (.inl hearly)
  by_cases hlate : dateEnd ≤ now
  · have hmonth := monthStart_late hlate
    by_cases hlast : now ≤ lastDate
    · rw [if_pos hlast] at hmonth
      exact .last hmonth hlate hlast
    · rw [if_neg hlast] at hmonth
      exact .invalid hmonth (.inr (not_le.1 hlast))
  by_cases hmisread : yearZero ≤ now ∧ now < dateStart
  · obtain ⟨b, n, hstart, hbucket, hlow, hahead⟩ := monthStart_misread hmisread.1 hmisread.2
    exact .misread hstart hbucket hlow hahead hmisread.1 hmisread.2
  obtain ⟨y, m, hyear, -, hm, hfirst, hlast, hlow, hhigh⟩ :=
    exists_month_of_time (not_lt.1 hearly) (not_le.1 hlate)
  obtain ⟨hmodern, hancient⟩ := @year_of_time now
  rw [hyear] at hmodern hancient
  have hy : y < 0 ∨ 100 ≤ y := by
    by_cases hzero : now < yearZero
    · exact .inl (hancient hzero)
    · exact .inr (hmodern (by by_contra hlt; exact hmisread ⟨not_lt.1 hzero, not_le.1 hlt⟩))
  obtain ⟨-, hzero, hhundred, -⟩ := firstDay_dates
  have hboundary := month_boundary y 0 hm (show 0 < 12 by norm_num)
  have hboundary' := month_boundary y 100 hm (show 0 < 12 by norm_num)
  rw [hzero] at hboundary
  rw [hhundred] at hboundary'
  have hlen := length_month y hm
  refine .month (bucket_month hy hm hfirst hlast) ?_ (by omega) (by omega) ?_ ?_ ?_
  · unfold firstDate shanghaiOffset dayMilliseconds
    omega
  · unfold dateEnd shanghaiOffset dayMilliseconds
    omega
  · by_cases hpast : now < yearZero
    · left
      unfold yearZero at *
      unfold shanghaiOffset dayMilliseconds at *
      omega
    · right
      have hnow : dateStart ≤ now := by
        by_contra hlt
        exact hmisread ⟨not_lt.1 hpast, not_le.1 hlt⟩
      unfold dateStart at *
      unfold shanghaiOffset dayMilliseconds at *
      omega
  · unfold dayMilliseconds
    omega

/-- The month at `dateEnd` has no end. -/
theorem nextBucket_dateEnd : nextBucket dateEnd .month = none := by decide +kernel

/-- A bucket start lies in its own bucket. -/
theorem Bucket.start_self {grain : Grain} {b n : Int} (h : Bucket grain b n) :
    bucketStart b grain = some b := by
  have hlong := h.long
  exact h.start b le_rfl (by omega)

/-- A month has an end only up to `dateEnd`. -/
theorem Bucket.month_le {b n : Int} (h : Bucket .month b n) : n ≤ dateEnd := by
  by_contra hover
  by_cases hb : b ≤ dateEnd
  · have hlast : bucketStart dateEnd .month = some dateEnd :=
      (monthStart_late le_rfl).trans (if_pos (by decide))
    obtain rfl := Option.some.inj ((h.start dateEnd hb (by omega)).symm.trans hlast)
    exact nomatch h.next.symm.trans nextBucket_dateEnd
  · have hself := monthStart_late (not_le.1 hb).le
    by_cases hlast : b ≤ lastDate
    · rw [if_pos hlast] at hself
      have heq := Option.some.inj (h.start_self.symm.trans hself)
      omega
    · rw [if_neg hlast] at hself
      exact nomatch h.start_self.symm.trans hself

/-- Buckets do not overlap: one that ends inside another ends where that one starts. -/
theorem Bucket.next_start {grain : Grain} {b n b' n' : Int} (h : Bucket grain b n)
    (h' : Bucket grain b' n') (hle : b' ≤ n) (hlt : n < n') : b' = n := by
  have hlong := h.long
  by_contra hne
  have hsame : some b = some b' :=
    (h.start (max b b') (by omega) (by omega)).symm.trans
      (h'.start (max b b') (by omega) (by omega))
  obtain rfl := Option.some.inj hsame
  have hend := Option.some.inj (h.next.symm.trans h'.next)
  omega

/-- The end of a bucket is the start of the next one. -/
theorem Bucket.start_next {grain : Grain} {b n : Int} (h : Bucket grain b n)
    (hlow : dateStart ≤ n) (hdate : grain = .month → n < dateEnd) :
    bucketStart n grain = some n := by
  obtain ⟨b', n', h', -, hle, hlt⟩ := bucket_spec grain hlow hdate
  rw [h'.start n hle hlt, h.next_start h' hle hlt]

/-- The bucket of a time is found from its start. -/
theorem bucket_of_start {grain : Grain} {t b : Int} (hlow : dateStart ≤ t)
    (hdate : grain = .month → t < dateEnd) (h : bucketStart t grain = some b) :
    ∃ n, Bucket grain b n ∧ dateStart ≤ b ∧ b ≤ t ∧ t < n := by
  obtain ⟨b', n, hbucket, hb, hle, hlt⟩ := bucket_spec grain hlow hdate
  obtain rfl : b' = b := Option.some.inj ((hbucket.start t hle hlt).symm.trans h)
  exact ⟨n, hbucket, hb, hle, hlt⟩

/-! ## Finer and coarser grains -/

/-- All buckets are made of whole minutes. -/
theorem Bucket.minutes {grain : Grain} {b n t : Int} (h : Bucket grain b n)
    (hlow : dateStart ≤ t) (hdate : grain = .month → t < dateEnd) (hle : b ≤ t) (hlt : t < n) :
    b ≤ sizedStart 60000 t := by
  have hstart := h.start t hle hlt
  cases grain with
  | minute =>
    obtain rfl := Option.some.inj hstart
    exact le_rfl
  | day =>
    obtain rfl := Option.some.inj hstart
    unfold sizedStart dayMilliseconds at *
    omega
  | month =>
    obtain ⟨y, m, hyear, -, hm, hfirst, hlast, hlow', hhigh'⟩ := exists_month_of_time
      (show firstDate ≤ t by unfold firstDate; unfold dateStart at hlow; omega) (hdate rfl)
    have hy := year_of_time.1 hlow
    rw [hyear] at hy
    have heq := (monthStart_eq (.inr hy) hm hfirst hlast hlow' hhigh').symm.trans hstart
    obtain rfl := Option.some.inj heq
    unfold sizedStart dayMilliseconds at *
    omega

/-- A minute lies in one bucket of every grain. -/
theorem bucketStart_minute {grain : Grain} {t : Int} (hlow : dateStart ≤ t)
    (hdate : grain = .month → t < dateEnd) :
    bucketStart (sizedStart 60000 t) grain = bucketStart t grain := by
  obtain ⟨b, n, hbucket, -, hle, hlt⟩ := bucket_spec grain hlow hdate
  have hminute := hbucket.minutes hlow hdate hle hlt
  have hbelow : sizedStart 60000 t ≤ t := by
    unfold sizedStart
    omega
  rw [hbucket.start t hle hlt, hbucket.start _ hminute (by omega)]

/-- A day lies in one month. -/
theorem bucketStart_day {t : Int} (hlow : dateStart ≤ t) (hdate : t ≤ lastDate) :
    bucketStart (sizedStart dayMilliseconds t) .month = bucketStart t .month := by
  by_cases hlate : dateEnd ≤ t
  · have hday : dateEnd ≤ sizedStart dayMilliseconds t ∧ sizedStart dayMilliseconds t ≤ t := by
      unfold sizedStart shanghaiOffset dayMilliseconds dateEnd at *
      omega
    show monthStart _ = monthStart _
    rw [monthStart_late hlate, monthStart_late hday.1, if_pos hdate, if_pos (by omega)]
  · obtain ⟨y, m, hyear, -, hm, hfirst, hlast, hlow', hhigh'⟩ := exists_month_of_time
      (show firstDate ≤ t by unfold firstDate; unfold dateStart at hlow; omega) (not_le.1 hlate)
    have hy := year_of_time.1 hlow
    rw [hyear] at hy
    have hday : sizedStart dayMilliseconds t + shanghaiOffset ≤ t + shanghaiOffset ∧
        firstDay y m * dayMilliseconds ≤ sizedStart dayMilliseconds t + shanghaiOffset := by
      unfold sizedStart dayMilliseconds at *
      omega
    show monthStart _ = monthStart _
    rw [monthStart_eq (.inr hy) hm hfirst hlast hday.2 (by omega),
      monthStart_eq (.inr hy) hm hfirst hlast hlow' hhigh']

/-- A bucket start is its own bucket, which starts at `t` or before. -/
theorem bucketStart_aligned {grain : Grain} {t b : Int} (hlow : dateStart ≤ t)
    (h : bucketStart t grain = some b) :
    bucketStart b grain = some b ∧ dateStart ≤ b ∧ b ≤ t := by
  by_cases hdate : grain = .month → t < dateEnd
  · obtain ⟨n, hbucket, hb, hle, -⟩ := bucket_of_start hlow hdate h
    exact ⟨hbucket.start_self, hb, hle⟩
  · obtain ⟨rfl, hlate⟩ := Classical.not_imp.1 hdate
    have hmonth := monthStart_late (not_lt.1 hlate)
    have hself := monthStart_late (le_refl dateEnd)
    rw [if_pos (by decide)] at hself
    by_cases hlast : t ≤ lastDate
    · rw [if_pos hlast] at hmonth
      obtain rfl := Option.some.inj (hmonth.symm.trans h)
      exact ⟨hself, by decide, not_lt.1 hlate⟩
    · rw [if_neg hlast] at hmonth
      exact nomatch hmonth.symm.trans h

/-- A month starts with a day. -/
theorem monthStart_day {t b : Int} (h : monthStart t = some b) : sizedStart dayMilliseconds b = b := by
  simp only [monthStart, Option.bind_eq_bind, Option.bind_eq_some_iff, Option.pure_def,
    Option.some.injEq] at h
  obtain ⟨date, -, start, hstart, rfl⟩ := h
  rw [firstOfMonth, timeClip] at hstart
  split_ifs at hstart
  · obtain rfl := Option.some.inj hstart
    unfold sizedStart dayMilliseconds
    omega
  · obtain rfl := Option.some.inj hstart
    unfold sizedStart dayMilliseconds
    omega

/-! ## The partition -/

/-- The end of a bucket starts a bucket, also where that one has no end. -/
theorem Bucket.bucketStart_end {grain : Grain} {b n : Int} (h : Bucket grain b n)
    (hlow : dateStart ≤ n) : bucketStart n grain = some n := by
  by_cases hdate : grain = .month → n < dateEnd
  · exact h.start_next hlow hdate
  · obtain ⟨rfl, hlate⟩ := Classical.not_imp.1 hdate
    obtain rfl : n = dateEnd := le_antisymm h.month_le (not_lt.1 hlate)
    exact (monthStart_late le_rfl).trans (if_pos (by decide))

/-- The end of a bucket is the first bucket start after its own. -/
theorem Bucket.isLeast_end {grain : Grain} {b n : Int} (h : Bucket grain b n)
    (hlow : dateStart ≤ n) : IsLeast {u | b < u ∧ bucketStart u grain = some u} n := by
  have hlong := h.long
  refine ⟨⟨by omega, h.bucketStart_end hlow⟩, fun u hu => ?_⟩
  by_contra hlt
  have hsame := (h.start u hu.1.le (not_le.1 hlt)).symm.trans hu.2
  exact absurd (Option.some.inj hsame) hu.1.ne

/-- A month with an end starts before `dateEnd`. -/
theorem lt_dateEnd {t b n : Int} (hstart : bucketStart t .month = some b)
    (hend : nextBucket b .month = some n) : t < dateEnd := by
  by_contra hlate
  rw [show bucketStart t .month = _ from monthStart_late (not_lt.1 hlate)] at hstart
  split_ifs at hstart
  obtain rfl := Option.some.inj hstart
  exact nomatch hend.symm.trans nextBucket_dateEnd

/-- **The buckets of a grain partition the times, and the grains are nested.** A time from the
epoch on whose month has an end lies in one bucket of each grain, all times of that bucket have its
start, and the next bucket start is its end. A minute lies in one day, and a day in one month. -/
theorem buckets_partition {t month monthEnd : Int} (ht : 0 ≤ t)
    (hmonth : bucketStart t .month = some month)
    (hend : nextBucket month .month = some monthEnd) :
    (∀ grain, ∃ b n, bucketStart t grain = some b ∧ nextBucket b grain = some n ∧ b ≤ t ∧ t < n ∧
      bucketStart b grain = some b ∧
      (∀ u, b ≤ u → u < n → bucketStart u grain = some b) ∧
      IsLeast {u | b < u ∧ bucketStart u grain = some u} n) ∧
    ∃ minute minuteEnd day dayEnd,
      bucketStart t .minute = some minute ∧ nextBucket minute .minute = some minuteEnd ∧
      bucketStart t .day = some day ∧ nextBucket day .day = some dayEnd ∧
      month ≤ day ∧ day ≤ minute ∧ minuteEnd ≤ dayEnd ∧ dayEnd ≤ monthEnd := by
  have hdate := lt_dateEnd hmonth hend
  have hlow : dateStart ≤ t := le_trans (by decide) ht
  constructor
  · intro grain
    obtain ⟨b, n, hbucket, -, hle, hlt⟩ := bucket_spec grain hlow fun _ => hdate
    exact ⟨b, n, hbucket.start t hle hlt, hbucket.next, hle, hlt, hbucket.start_self,
      hbucket.start, hbucket.isLeast_end (hlow.trans hlt.le)⟩
  · obtain ⟨n, hbucket, -, hle, hlt⟩ := bucket_of_start hlow (fun _ => hdate) hmonth
    obtain rfl := Option.some.inj (hbucket.next.symm.trans hend)
    -- The ends of a month are days, so its days do not reach over them.
    have hfirst := monthStart_day (show monthStart month = some month from hbucket.start_self)
    have hlast := monthStart_day (show monthStart n = some n from
      hbucket.bucketStart_end (hlow.trans hlt.le))
    refine ⟨_, _, _, _, rfl, rfl, rfl, rfl, ?_, ?_, ?_, ?_⟩
    all_goals
      unfold sizedStart dayMilliseconds at *
      omega

/-- The last of February 2024. -/
theorem leap_day_partition :
    bucketStart 1709222399999 .month = some 1706716800000 ∧
    ∃ minute minuteEnd day dayEnd,
      bucketStart 1709222399999 .minute = some minute ∧
      nextBucket minute .minute = some minuteEnd ∧
      bucketStart 1709222399999 .day = some day ∧ nextBucket day .day = some dayEnd ∧
      1706716800000 ≤ day ∧ day ≤ minute ∧ minuteEnd ≤ dayEnd ∧ dayEnd ≤ 1709222400000 :=
  ⟨by decide +kernel, (buckets_partition (t := 1709222399999) (by decide) (by decide +kernel)
    (by decide +kernel)).2⟩

end Bifurcation.Panel
