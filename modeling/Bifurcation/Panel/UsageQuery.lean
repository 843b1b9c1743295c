import Bifurcation.Panel.Ledger

/-!
# Usage queries

`UsageStore.query` of `usage/store.ts`: the window of a query is rounded out to buckets and
checked against limits, the buckets inside are summed up in total, by bucket start and by user and
machine, and the sum is compared with that of the previous window.

**`NaN`.** A bound whose month is no date is `NaN`, here `none`. Every comparison with it is
false, so it passes the limits, and bound to a statement it is `NULL`, which selects no row.

**Answers.** An answer is well formed when its window is. This holds for the buckets of any run
exactly when both bounds are dates, or the query is refused for another reason
(`Answerable`).

The largest minute of the window, a floating-point rate, is left out, and so are the names of
users and machines. Ids are UUIDs, so a group is keyed by the pair of them.

Main result: `query_wellFormed_iff`.
-/

namespace Bifurcation.Panel

/-- What `queryInput` accepts. -/
structure UsageQuery where
  start : Option Int := none
  end_ : Option Int := none
  grain : Grain := .day
  userId : Option String := none
  machineId : Option String := none
  start_nonnegative : ∀ s ∈ start, 0 ≤ s ∧ s ≤ maxSafeInteger
  end_positive : ∀ e ∈ end_, 0 < e ∧ e ≤ maxSafeInteger

/-! ## The window -/

/-- The start asked for: the current month is the default. -/
def UsageQuery.requestedStart (q : UsageQuery) (now : Int) : Option Int :=
  q.start.or (monthStart now)

def UsageQuery.suppliedEnd (q : UsageQuery) (now : Int) : Option Int :=
  q.end_.or ((monthStart now).bind (nextBucket · .month))

/-- The end of the bucket a time lies in, unless a bucket starts there. -/
def bucketEnd (time : Int) (grain : Grain) : Option Int :=
  if bucketStart time grain = some time then some time
  else (bucketStart time grain).bind (nextBucket · grain)

/-- The days a window may span. -/
def longestSpan : Grain → Int
  | .minute => 7
  | .day => 366
  | .month => 3660

/-- A comparison of two numbers that may be `NaN`. -/
def compareNumbers (test : Int → Int → Bool) (a b : Option Int) : Bool :=
  a.any fun x => b.any fun y => test x y

/-- The refusal of a window. -/
def outOfLimits (start end_ : Option Int) (grain : Grain) (now : Int) : Bool :=
  compareNumbers (fun s e => e ≤ s) start end_ ||
    (end_.any fun e => e > now + 32 * dayMilliseconds) ||
    compareNumbers (fun s e => e - s > longestSpan grain * dayMilliseconds) start end_

/-- The keys of a window: what `filters` selects. -/
def selected (grain : Grain) (start end_ : Option Int) (userId machineId : Option String)
    (key : BucketKey) : Bool :=
  key.grain = grain && (start.any fun s => s ≤ key.bucketStart) &&
    (end_.any fun e => key.bucketStart < e) && (userId.all fun u => key.userId = u) &&
    (machineId.all fun m => key.machineId = m)

/-- The buckets of a window whose user and machine exist, by their start. -/
def usageRows (grain : Grain) (start end_ : Option Int) (userId machineId : Option String)
    (db : Database) : List (BucketKey × BucketRow) :=
  (db.usageBuckets.rows.filter fun row => selected grain start end_ userId machineId row.1 &&
    (db.users.get? row.1.userId).isSome && (db.machines.get? row.1.machineId).isSome).insertionSort
      (·.1.bucketStart ≤ ·.1.bucketStart)

/-! ## Parts of an answer -/

/-- The machines whose reporting is interrupted, for a window that is in progress. -/
def currentReportingIssues (start end_ : Option Int) (now : Int)
    (userId machineId : Option String) (db : Database) : List String :=
  if start.any (fun s => s > now) || end_.any (fun e => e ≤ now) then []
  else (db.machines.rows.filter fun machine =>
    machine.2.removedAt.isNone && machine.2.installationId.isSome &&
    (machineId.all fun m => machine.1 = m) &&
    (db.machineUserHistory.rows.any fun row =>
      row.1.1 = machine.1 && userId.all fun u => row.1.2 = u) &&
    !isUninstalled db machine.1 machine.2.bindingEpoch &&
    (machine.2.statusSequence = 0 || (machine.2.status.all fun status => status.usageIncomplete) ||
      machine.2.lastSeenAt.all fun seen => seen ≤ now - 60000)).map Prod.fst

structure UsagePoint where
  bucketStart : Int
  amount : BucketRow
deriving DecidableEq

structure UsageGroup where
  userId : String
  machineId : String
  amount : BucketRow
deriving DecidableEq

def pointsOf (rows : List (BucketKey × BucketRow)) (issues : List String) (now : Int)
    (grain : Grain) : List UsagePoint :=
  (Grouping.group (fun row : BucketKey × BucketRow => row.1.bucketStart) Prod.snd rows).map
    fun point => ⟨point.1, { point.2 with
      incomplete := point.2.incomplete ||
        (!issues.isEmpty && bucketStart now grain = some point.1) }⟩

def groupsOf (rows : List (BucketKey × BucketRow)) (issues : List String) : List UsageGroup :=
  (Grouping.group (fun row : BucketKey × BucketRow => (row.1.userId, row.1.machineId)) Prod.snd
    rows).map fun group => ⟨group.1.1, group.1.2, { group.2 with
      incomplete := group.2.incomplete || issues.contains group.1.2 }⟩

/-- The share of the limit a warning is shown from. -/
inductive QuotaWarning where
  | eighty
  | ninetyFive
  | hundred
deriving DecidableEq

structure CurrentMonth where
  period : String
  usedBytes : Int
  limitBytes : Option Int
  blocked : Bool
  warning : Option QuotaWarning
deriving DecidableEq

def currentMonthOf (quota : Quota) : CurrentMonth where
  period := quota.period
  usedBytes := quota.used
  limitBytes := quota.limit
  blocked := quota.blocked
  warning := quota.limit.bind fun limit =>
    if limit ≤ quota.used then some .hundred
    else if limit * 95 ≤ quota.used * 100 then some .ninetyFive
    else if limit * 80 ≤ quota.used * 100 then some .eighty
    else none

/-- A window that is one month. -/
def naturalMonth (start end_ : Option Int) : Bool :=
  start.isSome && end_.isSome && start = start.bind monthStart &&
    end_ = start.bind (nextBucket · .month)

/-- The grain the previous window is summed at. -/
def previousGrain (start end_ : Option Int) (grain : Grain) : Grain :=
  if naturalMonth start end_ then .month else if grain = .month then .day else grain

/-- Where the previous window starts; it ends where the window starts. -/
def previousStart (start end_ : Option Int) : Option Int :=
  start.bind fun s => end_.bind fun e =>
    if naturalMonth start end_ then monthStart (s - 1) else some (s - (e - s))

structure PeriodSum where
  upload : Int
  download : Int
  hasData : Bool
  incomplete : Bool

def sumPeriod (grain : Grain) (start end_ : Option Int) (userId machineId : Option String)
    (db : Database) : PeriodSum :=
  let rows := db.usageBuckets.rows.filter fun row =>
    selected grain start end_ userId machineId row.1
  ⟨(rows.map (·.2.uploadBytes)).sum, (rows.map (·.2.downloadBytes)).sum, !rows.isEmpty,
    rows.any (·.2.incomplete)⟩

structure PreviousPeriod where
  previousStart : Option Int
  previousEnd : Option Int
  uploadBytes : Int
  downloadBytes : Int
  hasData : Bool
  incomplete : Bool
  currentPeriodInProgress : Bool
  /-- `changePercent`, in hundredths. -/
  changeBasisPoints : Option Int
deriving DecidableEq

/-- The change in hundredths of a percent, rounded half away from zero. -/
def basisPoints (total previousTotal : Int) : Int :=
  let numerator := (total - previousTotal) * 10000
  if 0 ≤ numerator then (numerator + previousTotal / 2) / previousTotal
  else -((-numerator + previousTotal / 2) / previousTotal)

structure UsageDto where
  start : Option Int
  end_ : Option Int
  grain : Grain
  uploadBytes : Int
  downloadBytes : Int
  estimated : Bool
  incomplete : Bool
  points : List UsagePoint
  groups : List UsageGroup
  currentMonth : Option CurrentMonth
  previousPeriod : PreviousPeriod
deriving DecidableEq

/-! ## The query -/

/-- The minutes before the cut-off are gone. -/
def minutesExpired (grain : Grain) (start : Option Int) (now : Int) : Bool :=
  grain = .minute && start.any fun s => s < minuteCutoff now

/-- `query` behind the check of its window and the quota. -/
def answerQuery (q : UsageQuery) (start end_ : Option Int) (quota : Option Quota) (now : Int)
    (db : Database) : UsageDto :=
  let rows := usageRows q.grain start end_ q.userId q.machineId db
  let issues := currentReportingIssues start end_ now q.userId q.machineId db
  let upload := (rows.map (·.2.uploadBytes)).sum
  let download := (rows.map (·.2.downloadBytes)).sum
  let incomplete := !issues.isEmpty || rows.isEmpty || rows.any (·.2.incomplete) ||
    minutesExpired q.grain start now
  let previousFrom := previousStart start end_
  let grain := previousGrain start end_ q.grain
  let previous := sumPeriod grain previousFrom start q.userId q.machineId db
  let previousIncomplete := !previous.hasData || previous.incomplete ||
    minutesExpired grain previousFrom now
  let inProgress := end_.any fun e => e > now
  let previousTotal := previous.upload + previous.download
  { start, end_, grain := q.grain, uploadBytes := upload, downloadBytes := download
    estimated := rows.any (·.2.estimated)
    incomplete
    points := pointsOf rows issues now q.grain
    groups := groupsOf rows issues
    currentMonth := quota.map currentMonthOf
    previousPeriod :=
      { previousStart := previousFrom, previousEnd := start, uploadBytes := previous.upload
        downloadBytes := previous.download, hasData := previous.hasData
        incomplete := previousIncomplete, currentPeriodInProgress := inProgress
        changeBasisPoints :=
          if !inProgress && !incomplete && !previousIncomplete && previous.hasData &&
              0 < previousTotal then
            some (basisPoints (upload + download) previousTotal)
          else none } }

/-- The quota of the user that is asked about, if one is. -/
def quotaOf (q : UsageQuery) (now : Int) (db : Database) : Except PanelError (Option Quota) :=
  match q.userId with
  | none => return none
  | some userId => do
    let quota ← userQuota userId now db
    return some quota

def UsageQuery.startOf (q : UsageQuery) (now : Int) : Option Int :=
  (q.requestedStart now).bind (bucketStart · q.grain)

def UsageQuery.endOf (q : UsageQuery) (now : Int) : Option Int :=
  (q.suppliedEnd now).bind (bucketEnd · q.grain)

def query (q : UsageQuery) (now : Int) (db : Database) : Except PanelError UsageDto := do
  failIf (outOfLimits (q.startOf now) (q.endOf now) q.grain now)
    (.app "INVALID_TIME_RANGE" "查询时间范围超出限制" 422)
  let quota ← quotaOf q now db
  return answerQuery q (q.startOf now) (q.endOf now) quota now db

/-! ## Well-formed answers -/

/-- A bucket start of a grain. -/
def AlignedTo (grain : Grain) (t : Int) : Prop := bucketStart t grain = some t

/-- An answer for the window `[s, e)`. -/
structure WellFormed (q : UsageQuery) (now : Int) (dto : UsageDto) (s e : Int) : Prop where
  start : dto.start = some s
  end_ : dto.end_ = some e
  aligned : AlignedTo q.grain s ∧ AlignedTo q.grain e
  contains : (∃ r, q.requestedStart now = some r ∧ s ≤ r) ∧ ∃ r, q.suppliedEnd now = some r ∧ r ≤ e
  nonempty : s < e
  span : e - s ≤ longestSpan q.grain * dayMilliseconds
  near : e ≤ now + 32 * dayMilliseconds
  previous : ∃ p, dto.previousPeriod.previousStart = some p ∧
    dto.previousPeriod.previousEnd = some s ∧ p < s ∧
    AlignedTo (previousGrain dto.start dto.end_ q.grain) p
  points : dto.uploadBytes = (dto.points.map (·.amount.uploadBytes)).sum ∧
    dto.downloadBytes = (dto.points.map (·.amount.downloadBytes)).sum
  groups : dto.uploadBytes = (dto.groups.map (·.amount.uploadBytes)).sum ∧
    dto.downloadBytes = (dto.groups.map (·.amount.downloadBytes)).sum
  inside : ∀ point ∈ dto.points,
    AlignedTo q.grain point.bucketStart ∧ s ≤ point.bucketStart ∧ point.bucketStart < e

/-! ## When a query is answered well -/

/-- The second month start that is a date. -/
def secondMonth : Int := -8639996400000000

/-- The start of a query is a date. -/
def StartDated (q : UsageQuery) (now : Int) : Prop :=
  match q.start with
  | some s => q.grain = .month → s ≤ lastDate
  | none => firstDate ≤ now ∧ now ≤ lastDate

/-- The end of a query is a date, and so is the end of its month. -/
def EndDated (q : UsageQuery) (now : Int) : Prop :=
  match q.end_ with
  | some e => q.grain = .month → e ≤ dateEnd
  | none => firstDate ≤ now ∧ now < dateEnd

/-- The current month is compared with the one before it: the first one has none, and the year 99
is read as 1999. -/
def MonthBefore (q : UsageQuery) (now : Int) : Prop :=
  q.start = none → q.end_ = none → q.grain ≠ .minute →
    secondMonth ≤ now ∧ ¬ (dateStart ≤ now ∧ now < dateStart + 31 * dayMilliseconds)

/-- Every bucket start from the end of the query on is too far ahead. -/
def EndsLate (q : UsageQuery) (now : Int) : Prop :=
  ∀ r, q.suppliedEnd now = some r → ∀ b, r ≤ b → AlignedTo q.grain b →
    now + 32 * dayMilliseconds < b

/-- The user of the query has no quota to show. -/
def NoQuota (q : UsageQuery) (now : Int) (db : Database) : Prop :=
  ∃ error, quotaOf q now db = .error error

/-- What makes an answer well formed, or prevents one. -/
def Answerable (q : UsageQuery) (now : Int) (db : Database) : Prop :=
  (StartDated q now ∧ EndDated q now ∧ MonthBefore q now) ∨ (EndDated q now ∧ EndsLate q now) ∨
    NoQuota q now db

/-! ## Bounds -/

/-- A time is rounded up to the next bucket start. -/
theorem bucketEnd_spec {grain : Grain} {t : Int}
    (hdate : grain = .month → dateStart ≤ t ∧ t ≤ dateEnd) :
    ∃ e, bucketEnd t grain = some e ∧ t ≤ e ∧ AlignedTo grain e ∧
      ∀ b, t ≤ b → AlignedTo grain b → e ≤ b := by
  by_cases hself : bucketStart t grain = some t
  · exact ⟨t, if_pos hself, le_rfl, hself, fun b hb _ => hb⟩
  cases grain with
  | minute =>
    refine ⟨sizedStart 60000 t + 60000, if_neg hself, ?_, ?_, fun b hb haligned => ?_⟩
    · unfold sizedStart
      omega
    · show some (sizedStart 60000 _) = _
      unfold sizedStart shanghaiOffset
      congr 1
      omega
    · have hne : sizedStart 60000 t ≠ t := fun heq => hself (congrArg some heq)
      have hb' : sizedStart 60000 b = b := Option.some.inj haligned
      unfold sizedStart at *
      omega
  | day =>
    refine ⟨sizedStart dayMilliseconds t + dayMilliseconds, if_neg hself, ?_, ?_,
      fun b hb haligned => ?_⟩
    · unfold sizedStart dayMilliseconds
      omega
    · show some (sizedStart dayMilliseconds _) = _
      unfold sizedStart shanghaiOffset dayMilliseconds
      congr 1
      omega
    · have hne : sizedStart dayMilliseconds t ≠ t := fun heq => hself (congrArg some heq)
      have hb' : sizedStart dayMilliseconds b = b := Option.some.inj haligned
      unfold sizedStart dayMilliseconds at *
      omega
  | month =>
    obtain ⟨hlow, hhigh⟩ := hdate rfl
    have hlast : bucketStart dateEnd .month = some dateEnd :=
      (monthStart_late le_rfl).trans (if_pos (by decide))
    have hlt : t < dateEnd := by
      rcases hhigh.lt_or_eq with hlt | heq
      · exact hlt
      · exact absurd (heq ▸ hlast) hself
    obtain ⟨b, n, hbucket, hb, hle, hn⟩ := bucket_spec .month hlow fun _ => hlt
    have hnext : bucketEnd t .month = some n := by
      rw [bucketEnd, if_neg hself, hbucket.start t hle hn, Option.bind_some, hbucket.next]
    have hend := hbucket.month_le
    refine ⟨n, hnext, hn.le, ?_, fun b' hb' haligned => ?_⟩
    · rcases hend.lt_or_eq with hlt' | heq
      · exact hbucket.start_next (by omega) fun _ => hlt'
      · exact heq ▸ hlast
    · by_contra hinside
      have hsame : b = b' := Option.some.inj
        ((hbucket.start b' (by omega) (by omega)).symm.trans haligned)
      exact hself (by rw [hbucket.start t hle hn]; congr 1; omega)

/-- The months of the years 0 to 99 have no start of their own. -/
theorem aligned_misread {b : Int} (hlow : yearZero ≤ b) (h : AlignedTo .month b) : dateStart ≤ b := by
  by_contra hlt
  obtain ⟨b', -, hstart, -, hb', hlate⟩ := monthStart_misread hlow (not_le.1 hlt)
  obtain rfl := Option.some.inj (hstart.symm.trans h)
  omega

/-- The starts of the buckets grow with the times. -/
theorem bucketStart_lower {grain : Grain} {a t s : Int} (hlow : dateStart ≤ a)
    (ha : AlignedTo grain a) (hle : a ≤ t) (h : bucketStart t grain = some s) : a ≤ s := by
  by_cases hdate : grain = .month → t < dateEnd
  · obtain ⟨n, hbucket, -, hs, hn⟩ := bucket_of_start (by omega) hdate h
    by_contra hlt
    have hsame := (hbucket.start a (by omega) (by omega)).symm.trans ha
    obtain rfl := Option.some.inj hsame
    omega
  · obtain ⟨rfl, hlate⟩ := Classical.not_imp.1 hdate
    have hmonth := monthStart_late (not_lt.1 hlate)
    by_cases hlast : t ≤ lastDate
    · rw [if_pos hlast] at hmonth
      obtain rfl := Option.some.inj (hmonth.symm.trans h)
      by_contra hlt
      have hself := monthStart_late (not_le.1 hlt).le
      rw [if_pos (by omega)] at hself
      obtain rfl := Option.some.inj (hself.symm.trans ha)
      omega
    · rw [if_neg hlast] at hmonth
      exact nomatch hmonth.symm.trans h

/-- The epoch starts buckets of all grains, in Shanghai. -/
theorem aligned_epoch (grain : Grain) : AlignedTo grain (-28800000) := by
  cases grain with
  | minute => rfl
  | day => rfl
  | month => exact (show monthStart (-28800000) = some (-28800000) by decide +kernel)

section Bounds

variable {q : UsageQuery} {now : Int}

/-- The current month starts at a bucket start of every grain. -/
theorem aligned_monthStart (grain : Grain) {m : Int} (h : monthStart now = some m) :
    AlignedTo grain m := by
  have hday := monthStart_day h
  cases grain with
  | minute =>
    show some (sizedStart 60000 m) = some m
    unfold sizedStart dayMilliseconds at *
    congr 1
    omega
  | day => exact congrArg some hday
  | month =>
    obtain ⟨hnone, -⟩ | ⟨hbucket, -, hle, hlt, -, -, -⟩ | ⟨hstart, hbucket, -⟩ |
      ⟨hstart, -, -⟩ := clockMonth now
    · exact nomatch hnone.symm.trans h
    · obtain rfl := Option.some.inj ((hbucket.start now hle hlt).symm.trans h)
      exact hbucket.start_self
    · obtain rfl := Option.some.inj (hstart.symm.trans h)
      exact hbucket.start_self
    · obtain rfl := Option.some.inj (hstart.symm.trans h)
      exact (monthStart_late le_rfl).trans (if_pos (by decide))

/-- A start that is a date is rounded down to a bucket start. -/
theorem startOf_spec (h : StartDated q now) :
    ∃ r s, q.requestedStart now = some r ∧ q.startOf now = some s ∧ AlignedTo q.grain s ∧ s ≤ r ∧
      (q.start = none → monthStart now = some s) ∧
      (q.start ≠ none → -28800000 ≤ s) := by
  cases hq : q.start with
  | some r =>
    have hr := (q.start_nonnegative r hq).1
    have hlast : q.grain = .month → r ≤ lastDate := by
      unfold StartDated at h
      rw [hq] at h
      exact h
    have hsome : ∃ s, bucketStart r q.grain = some s := by
      by_cases hdate : q.grain = .month → r < dateEnd
      · obtain ⟨b, n, hbucket, -, hle, hlt⟩ := bucket_spec q.grain
          (show dateStart ≤ r by unfold dateStart; omega) hdate
        exact ⟨b, hbucket.start r hle hlt⟩
      · obtain ⟨hmonth, hlate⟩ := Classical.not_imp.1 hdate
        rw [hmonth]
        exact ⟨dateEnd, (monthStart_late (not_lt.1 hlate)).trans (if_pos (hlast hmonth))⟩
    obtain ⟨s, hs⟩ := hsome
    obtain ⟨haligned, -, hle⟩ := bucketStart_aligned
      (show dateStart ≤ r by unfold dateStart; omega) hs
    have hrequested : q.requestedStart now = some r := by rw [UsageQuery.requestedStart, hq]; rfl
    refine ⟨r, s, hrequested, ?_, haligned, hle, nofun, fun _ => ?_⟩
    · rw [UsageQuery.startOf, hrequested, Option.bind_some, hs]
    · exact bucketStart_lower (by decide) (aligned_epoch q.grain) (by omega) hs
  | none =>
    unfold StartDated at h
    rw [hq] at h
    have hsome : ∃ m, monthStart now = some m := by
      obtain ⟨-, hout⟩ | ⟨hbucket, -, hle, hlt, -, -, -⟩ | ⟨hstart, -⟩ | ⟨hstart, -, -⟩ :=
        clockMonth now
      · omega
      · exact ⟨_, hbucket.start now hle hlt⟩
      · exact ⟨_, hstart⟩
      · exact ⟨_, hstart⟩
    obtain ⟨m, hm⟩ := hsome
    have hrequested : q.requestedStart now = some m := by
      rw [UsageQuery.requestedStart, hq, hm]; rfl
    have haligned := aligned_monthStart q.grain hm
    refine ⟨m, m, hrequested, ?_, haligned, le_rfl, fun _ => hm, fun hne => absurd rfl hne⟩
    rw [UsageQuery.startOf, hrequested, Option.bind_some, haligned]

/-- A start that is no date is `NaN`. -/
theorem startOf_undated (h : ¬ StartDated q now) : q.startOf now = none := by
  unfold StartDated at h
  cases hq : q.start with
  | some r =>
    rw [hq] at h
    obtain ⟨hmonth, hlate⟩ := Classical.not_imp.1 h
    have hnone : monthStart r = none :=
      (monthStart_late (by unfold lastDate at hlate; unfold dateEnd; omega)).trans (if_neg hlate)
    rw [UsageQuery.startOf, UsageQuery.requestedStart, hq, hmonth]
    exact hnone
  | none =>
    rw [hq] at h
    have hnone : monthStart now = none := by
      by_cases hearly : now < firstDate
      · exact monthStart_early hearly
      · have hlate : ¬ now ≤ lastDate := fun hle => h ⟨not_lt.1 hearly, hle⟩
        exact (monthStart_late (by unfold lastDate at hlate; unfold dateEnd; omega)).trans
          (if_neg hlate)
    rw [UsageQuery.startOf, UsageQuery.requestedStart, hq, hnone]
    rfl

/-- An end that is no date, or in the month without an end, is `NaN`. -/
theorem endOf_undated (h : ¬ EndDated q now) : q.endOf now = none := by
  unfold EndDated at h
  cases hq : q.end_ with
  | some r =>
    rw [hq] at h
    obtain ⟨hmonth, hlate⟩ := Classical.not_imp.1 h
    have hstart := monthStart_late (not_le.1 hlate).le
    have hnone : bucketEnd r .month = none := by
      show (if monthStart r = some r then some r else
        (monthStart r).bind (nextBucket · .month)) = none
      by_cases hlast : r ≤ lastDate
      · rw [if_pos hlast] at hstart
        rw [hstart, if_neg fun heq => hlate (Option.some.inj heq).ge, Option.bind_some,
          nextBucket_dateEnd]
      · rw [if_neg hlast] at hstart
        rw [hstart, if_neg nofun, Option.bind_none]
    rw [UsageQuery.endOf, UsageQuery.suppliedEnd, hq, hmonth]
    exact hnone
  | none =>
    rw [hq] at h
    have hnone : (monthStart now).bind (nextBucket · .month) = none := by
      by_cases hearly : now < firstDate
      · rw [monthStart_early hearly, Option.bind_none]
      · have hlate : dateEnd ≤ now := by
          by_contra hlt
          exact h ⟨not_lt.1 hearly, not_le.1 hlt⟩
        rw [monthStart_late hlate]
        by_cases hlast : now ≤ lastDate
        · rw [if_pos hlast, Option.bind_some, nextBucket_dateEnd]
        · rw [if_neg hlast, Option.bind_none]
    rw [UsageQuery.endOf, UsageQuery.suppliedEnd, hq, hnone]
    rfl

/-- An end that is a date is rounded up to a bucket start, to a late one exactly if all bucket
starts from there on are. -/
theorem endOf_spec (h : EndDated q now) :
    ∃ r e, q.suppliedEnd now = some r ∧ q.endOf now = some e ∧ AlignedTo q.grain e ∧ r ≤ e ∧
      (EndsLate q now ↔ now + 32 * dayMilliseconds < e) ∧ (q.end_ ≠ none → 0 < e) := by
  -- It is enough that no earlier bucket start is near.
  suffices hcore : ∃ r e, q.suppliedEnd now = some r ∧ bucketEnd r q.grain = some e ∧
      AlignedTo q.grain e ∧ r ≤ e ∧ (q.end_ ≠ none → 0 < e) ∧
      (now + 32 * dayMilliseconds < e → ∀ b, r ≤ b → AlignedTo q.grain b →
        now + 32 * dayMilliseconds < b) by
    obtain ⟨r, e, hr, he, haligned, hle, hpos, hlate⟩ := hcore
    refine ⟨r, e, hr, ?_, haligned, hle, ⟨fun hall => hall r hr e hle haligned, ?_⟩, hpos⟩
    · rw [UsageQuery.endOf, hr, Option.bind_some, he]
    · intro hover r' hr' b hb hb'
      obtain rfl := Option.some.inj (hr.symm.trans hr')
      exact hlate hover b hb hb'
  have hround : ∀ r, q.suppliedEnd now = some r → (q.end_ ≠ none → 0 < r) →
      (q.grain = .month → dateStart ≤ r ∧ r ≤ dateEnd) →
      ∃ r e, q.suppliedEnd now = some r ∧ bucketEnd r q.grain = some e ∧
        AlignedTo q.grain e ∧ r ≤ e ∧ (q.end_ ≠ none → 0 < e) ∧
        (now + 32 * dayMilliseconds < e → ∀ b, r ≤ b → AlignedTo q.grain b →
          now + 32 * dayMilliseconds < b) := by
    intro r hr hpos hdate
    obtain ⟨e, he, hle, haligned, hleast⟩ := bucketEnd_spec hdate
    exact ⟨r, e, hr, he, haligned, hle, fun hne => lt_of_lt_of_le (hpos hne) hle,
      fun hover b hb hb' => lt_of_lt_of_le hover (hleast b hb hb')⟩
  unfold EndDated at h
  cases hq : q.end_ with
  | some r =>
    rw [hq] at h hround
    have hr := (q.end_positive r hq).1
    refine hround r (by rw [UsageQuery.suppliedEnd, hq]; rfl) (fun _ => hr) fun hmonth => ?_
    exact ⟨by unfold dateStart; omega, h hmonth⟩
  | none =>
    rw [hq] at h hround
    have hsupplied : ∀ {m n}, monthStart now = some m → nextBucket m .month = some n →
        q.suppliedEnd now = some n := by
      intro m n hm hn
      rw [UsageQuery.suppliedEnd, hq, hm, Option.bind_some, hn]
      rfl
    obtain ⟨-, hout⟩ | @⟨b, n, hbucket, hlow, hle, hlt, hhigh, hread, hdays⟩ |
      @⟨b, n, hstart, hbucket, hlow, hlate, hfrom, hto⟩ | ⟨-, hlast, -⟩ := clockMonth now
    · unfold dateEnd at h
      unfold lastDate at hout
      omega
    · have hr := hsupplied (hbucket.start now hle hlt) hbucket.next
      by_cases hmonth : q.grain = .month → dateStart ≤ n
      · exact hround n hr (fun hne => absurd rfl hne) fun hgrain => ⟨hmonth hgrain, hhigh⟩
      obtain ⟨hgrain, hbelow⟩ := Classical.not_imp.1 hmonth
      have hancient : n ≤ yearZero := by
        unfold yearZero dateStart at *
        omega
      rw [hgrain]
      rcases hancient.lt_or_eq with hbefore | rfl
      · -- A month before the year 0 ends at the start of the next one.
        have hnext : AlignedTo .month n := by
          obtain ⟨-, hout⟩ | @⟨b', n', hbucket', -, hle', hlt', -, -, -⟩ | ⟨-, -, -, -, hzero, -⟩ |
            ⟨-, hlast, -⟩ := clockMonth n
          · unfold lastDate yearZero at *
            have hlong := hbucket.long
            omega
          · rw [← hbucket.next_start hbucket' hle' hlt']
            exact hbucket'.start_self
          · omega
          · unfold dateEnd yearZero at *
            omega
        exact ⟨n, n, hr, if_pos hnext, hnext, le_rfl, fun hne => absurd rfl hne,
          fun hover b' hb' _ => by omega⟩
      · -- The month that starts the year 0 is read as one of 1900.
        have hend : bucketEnd yearZero .month = some (-2206339200000) := by decide +kernel
        have hfeb : AlignedTo .month (-2206339200000) :=
          show monthStart (-2206339200000) = some (-2206339200000) by decide +kernel
        refine ⟨yearZero, _, hr, hend, hfeb, by decide, fun hne => absurd rfl hne, ?_⟩
        intro _ b' hb' haligned
        have hmodern := aligned_misread hb' haligned
        unfold yearZero dateStart dayMilliseconds at *
        omega
    · have hlong := hbucket.long
      exact hround n (hsupplied hstart hbucket.next) (fun hne => absurd rfl hne) fun _ =>
        ⟨by omega, hbucket.month_le⟩
    · unfold dateEnd at *
      omega

end Bounds

/-! ## The previous window -/

theorem naturalMonth_iff {s e : Int} : naturalMonth (some s) (some e) = true ↔
    monthStart s = some s ∧ nextBucket s .month = some e := by
  simp only [naturalMonth, Option.isSome_some, Option.bind_some, Bool.true_and, Bool.and_eq_true,
    decide_eq_true_eq]
  exact and_congr eq_comm eq_comm

/-- A month that is not the first one, or that of January 100, has a month before it. -/
theorem month_before {s : Int} (hself : monthStart s = some s) (hlow : firstDate < s)
    (hread : s ≤ yearZero ∨ dateStart < s) :
    ∃ p, monthStart (s - 1) = some p ∧ p < s ∧ AlignedTo .month p := by
  have hlate : s ≤ dateEnd := by
    by_contra hover
    have hmonth := monthStart_late (not_le.1 hover).le
    by_cases hlast : s ≤ lastDate
    · rw [if_pos hlast] at hmonth
      have heq := Option.some.inj (hself.symm.trans hmonth)
      omega
    · rw [if_neg hlast] at hmonth
      exact nomatch hself.symm.trans hmonth
  obtain ⟨-, hout⟩ | ⟨hbucket, -, hle, hlt, -, -, -⟩ | ⟨-, -, -, -, hzero, hhundred⟩ |
    ⟨-, hlast, -⟩ := clockMonth (s - 1)
  · unfold lastDate dateEnd at *
    omega
  · exact ⟨_, hbucket.start _ hle hlt, by omega, hbucket.start_self⟩
  · omega
  · omega

section Previous

variable {q : UsageQuery} {now s e : Int}

/-- The window before a month. -/
theorem previousStart_month (hself : monthStart s = some s) (hnext : nextBucket s .month = some e)
    (hlt : s < e) (hspan : e - s ≤ longestSpan q.grain * dayMilliseconds)
    (hnear : e ≤ now + 32 * dayMilliseconds) (hbefore : MonthBefore q now)
    (hdefault : q.start = none → monthStart now = some s)
    (hgiven : q.start ≠ none → -28800000 ≤ s) (hend : q.end_ ≠ none → 0 < e) :
    ∃ p, monthStart (s - 1) = some p ∧ p < s ∧ AlignedTo .month p := by
  by_cases hstart : q.start = none
  · have hyears : longestSpan q.grain ≤ 3660 := by
      cases q.grain <;> decide
    have hold : q.end_ ≠ none → -316224000000 ≤ s := by
      intro hne
      have hpos := hend hne
      unfold dayMilliseconds at hspan
      omega
    obtain ⟨hnone, -⟩ | @⟨b, n, hbucket, hlow, hle, hlt', -, hread, hdays⟩ |
      @⟨b, n, hmonth, hbucket, -, hlate, -, -⟩ | ⟨hmonth, -, -⟩ := clockMonth now
    · exact nomatch hnone.symm.trans (hdefault hstart)
    · obtain rfl := Option.some.inj ((hbucket.start now hle hlt').symm.trans (hdefault hstart))
      obtain rfl := Option.some.inj (hbucket.next.symm.trans hnext)
      -- A query for the current month by default is one for more than seven days.
      have hbefore' : q.end_ = none →
          secondMonth ≤ now ∧ ¬ (dateStart ≤ now ∧ now < dateStart + 31 * dayMilliseconds) := by
        intro hnone
        refine hbefore hstart hnone fun hminute => ?_
        rw [hminute] at hspan
        have hseven : longestSpan .minute = 7 := rfl
        unfold dayMilliseconds at *
        omega
      by_cases hnone : q.end_ = none
      · obtain ⟨hsecond, hhundred⟩ := hbefore' hnone
        refine month_before hself ?_ ?_
        · unfold secondMonth firstDate dayMilliseconds at *
          omega
        · unfold yearZero dateStart dayMilliseconds at *
          omega
      · have hrecent := hold hnone
        exact month_before hself (by unfold firstDate; omega) (.inr (by unfold dateStart; omega))
    · obtain rfl := Option.some.inj (hmonth.symm.trans (hdefault hstart))
      omega
    · obtain rfl := Option.some.inj (hmonth.symm.trans (hdefault hstart))
      exact nomatch nextBucket_dateEnd.symm.trans hnext
  · have hrecent := hgiven hstart
    exact month_before hself (by unfold firstDate; omega) (.inr (by unfold dateStart; omega))

/-- The window before another window is as long, and aligned to the next finer grain if the grain
is the month. -/
theorem previousStart_aligned (hs : AlignedTo q.grain s) (he : AlignedTo q.grain e)
    (hnatural : ¬ naturalMonth (some s) (some e) = true) :
    AlignedTo (previousGrain (some s) (some e) q.grain) (s - (e - s)) := by
  rw [previousGrain, if_neg hnatural]
  have hdays : ∀ {a b : Int}, sizedStart dayMilliseconds a = a → sizedStart dayMilliseconds b = b →
      AlignedTo .day (a - (b - a)) := by
    intro a b ha hb
    show some (sizedStart dayMilliseconds _) = _
    unfold sizedStart dayMilliseconds at *
    congr 1
    omega
  cases hgrain : q.grain with
  | minute =>
    rw [hgrain] at hs he
    have hs' : sizedStart 60000 s = s := Option.some.inj hs
    have he' : sizedStart 60000 e = e := Option.some.inj he
    show some (sizedStart 60000 _) = _
    unfold sizedStart at *
    congr 1
    omega
  | day =>
    rw [hgrain] at hs he
    exact hdays (Option.some.inj hs) (Option.some.inj he)
  | month =>
    rw [hgrain] at hs he
    exact hdays (monthStart_day hs) (monthStart_day he)

end Previous

/-! ## Sums -/

theorem sum_uploadBytes (rows : List BucketRow) :
    rows.sum.uploadBytes = (rows.map (·.uploadBytes)).sum := by
  induction rows with
  | nil => rfl
  | cons row rows ih => rw [List.sum_cons, BucketRow.add_uploadBytes, ih, List.map_cons, List.sum_cons]

theorem sum_downloadBytes (rows : List BucketRow) :
    rows.sum.downloadBytes = (rows.map (·.downloadBytes)).sum := by
  induction rows with
  | nil => rfl
  | cons row rows ih =>
    rw [List.sum_cons, BucketRow.add_downloadBytes, ih, List.map_cons, List.sum_cons]

/-- Grouping rows keeps the bytes, in both directions. -/
theorem bytes_group {κ : Type*} [DecidableEq κ] (key : BucketKey × BucketRow → κ)
    (rows : List (BucketKey × BucketRow)) :
    ((Grouping.group key Prod.snd rows).map (·.2.uploadBytes)).sum =
        (rows.map (·.2.uploadBytes)).sum ∧
      ((Grouping.group key Prod.snd rows).map (·.2.downloadBytes)).sum =
        (rows.map (·.2.downloadBytes)).sum := by
  have htotal : ((Grouping.group key Prod.snd rows).map Prod.snd).sum = (rows.map Prod.snd).sum :=
    Grouping.total_group rows
  have hup := congrArg BucketRow.uploadBytes htotal
  have hdown := congrArg BucketRow.downloadBytes htotal
  rw [sum_uploadBytes, sum_uploadBytes, List.map_map, List.map_map] at hup
  rw [sum_downloadBytes, sum_downloadBytes, List.map_map, List.map_map] at hdown
  exact ⟨hup, hdown⟩

/-- The totals are those of the points and of the groups. -/
theorem bytes_points_groups (rows : List (BucketKey × BucketRow)) (issues : List String) (now : Int)
    (grain : Grain) :
    ((rows.map (·.2.uploadBytes)).sum =
        ((pointsOf rows issues now grain).map (·.amount.uploadBytes)).sum ∧
      (rows.map (·.2.downloadBytes)).sum =
        ((pointsOf rows issues now grain).map (·.amount.downloadBytes)).sum) ∧
    ((rows.map (·.2.uploadBytes)).sum =
        ((groupsOf rows issues).map (·.amount.uploadBytes)).sum ∧
      (rows.map (·.2.downloadBytes)).sum =
        ((groupsOf rows issues).map (·.amount.downloadBytes)).sum) := by
  obtain ⟨hup, hdown⟩ := bytes_group (fun row => row.1.bucketStart) rows
  obtain ⟨hup', hdown'⟩ := bytes_group (fun row => (row.1.userId, row.1.machineId)) rows
  unfold pointsOf groupsOf
  rw [List.map_map, List.map_map, List.map_map, List.map_map]
  exact ⟨⟨hup.symm, hdown.symm⟩, hup'.symm, hdown'.symm⟩

/-- A point is the start of a bucket that was selected. -/
theorem mem_pointsOf {grain : Grain} {start end_ : Option Int} {userId machineId : Option String}
    {db : Database} {issues : List String} {now : Int} {point : UsagePoint}
    (h : point ∈ pointsOf (usageRows grain start end_ userId machineId db) issues now grain) :
    ∃ row ∈ db.usageBuckets.rows, selected grain start end_ userId machineId row.1 = true ∧
      row.1.bucketStart = point.bucketStart := by
  obtain ⟨group, hgroup, rfl⟩ := List.mem_map.1 h
  obtain ⟨row, hrow, hkey⟩ := (Grouping.mem_keys_group _ _).1 (List.mem_map_of_mem hgroup)
  rw [usageRows, List.mem_insertionSort, List.mem_filter, Bool.and_eq_true, Bool.and_eq_true]
    at hrow
  exact ⟨row, hrow.1, hrow.2.1.1, hkey⟩

/-! ## Answers -/

section Answers

variable {q : UsageQuery} {now : Int} {db : Database}

theorem query_eq_ok {dto : UsageDto} : query q now db = .ok dto ↔
    outOfLimits (q.startOf now) (q.endOf now) q.grain now = false ∧
      ∃ quota, quotaOf q now db = .ok quota ∧
        answerQuery q (q.startOf now) (q.endOf now) quota now db = dto := by
  simp only [query, failIf_eq_ok, bind_eq_ok, pure_eq_ok, Bool.not_eq_true, exists_const]

/-- The answer for a window with dates that passed the limits. -/
theorem answerQuery_wellFormed
    (haligned : ∀ key ∈ db.usageBuckets.rows.map Prod.fst, AlignedKey key)
    (hstart : StartDated q now) (hend : EndDated q now) (hbefore : MonthBefore q now)
    (hlimits : outOfLimits (q.startOf now) (q.endOf now) q.grain now = false)
    (quota : Option Quota) :
    ∃ s e, WellFormed q now
      (answerQuery q (q.startOf now) (q.endOf now) quota now db) s e := by
  obtain ⟨r, s, hr, hs, hsaligned, hsle, hdefault, hgiven⟩ := startOf_spec hstart
  obtain ⟨r', e, hr', he, healigned, hele, -, hpos⟩ := endOf_spec hend
  rw [hs, he] at hlimits ⊢
  simp only [outOfLimits, compareNumbers, Option.any_some, Bool.or_eq_false_iff,
    decide_eq_false_iff_not, not_le, not_lt, gt_iff_lt] at hlimits
  obtain ⟨⟨hlt, hnear⟩, hspan⟩ := hlimits
  obtain ⟨hpoints, hgroups⟩ := bytes_points_groups
    (usageRows q.grain (some s) (some e) q.userId q.machineId db)
    (currentReportingIssues (some s) (some e) now q.userId q.machineId db) now q.grain
  refine ⟨s, e, rfl, rfl, ⟨hsaligned, healigned⟩, ⟨⟨r, hr, hsle⟩, r', hr', hele⟩, hlt, hspan,
    hnear, ?_, hpoints, hgroups, fun point hpoint => ?_⟩
  · show ∃ p, previousStart (some s) (some e) = some p ∧ some s = some s ∧ p < s ∧
      AlignedTo (previousGrain (some s) (some e) q.grain) p
    by_cases hnatural : naturalMonth (some s) (some e) = true
    · obtain ⟨hself, hnext⟩ := naturalMonth_iff.1 hnatural
      obtain ⟨p, hp, hps, hpaligned⟩ :=
        previousStart_month hself hnext hlt hspan hnear hbefore hdefault hgiven hpos
      refine ⟨p, ?_, rfl, hps, ?_⟩
      · rw [previousStart, Option.bind_some, Option.bind_some, if_pos hnatural, hp]
      · rwa [previousGrain, if_pos hnatural]
    · refine ⟨s - (e - s), ?_, rfl, by omega, previousStart_aligned hsaligned healigned hnatural⟩
      rw [previousStart, Option.bind_some, Option.bind_some, if_neg hnatural]
  · obtain ⟨row, hrow, hselected, hkey⟩ := mem_pointsOf hpoint
    simp only [selected, Option.any_some, Bool.and_eq_true, decide_eq_true_eq] at hselected
    obtain ⟨⟨⟨⟨hgrain, hle⟩, hlt'⟩, -⟩, -⟩ := hselected
    rw [← hkey, ← hgrain]
    exact ⟨(haligned row.1 (List.mem_map_of_mem hrow)).1, hle, hlt'⟩

/-- A window that ends late is refused. -/
theorem query_late (hend : EndDated q now) (hlate : EndsLate q now) (dto : UsageDto) :
    query q now db ≠ .ok dto := by
  intro hok
  obtain ⟨hlimits, -⟩ := query_eq_ok.1 hok
  obtain ⟨r, e, -, he, -, -, hiff, -⟩ := endOf_spec hend
  have hover := hiff.1 hlate
  rw [he, outOfLimits, Option.any_some, decide_eq_true hover, Bool.or_true, Bool.true_or] at hlimits
  exact nomatch hlimits

/-- A bound that is `NaN` passes the limits. -/
theorem outOfLimits_undated (h : ¬ StartDated q now ∨ ¬ EndDated q now)
    (hlate : ¬ (EndDated q now ∧ EndsLate q now)) :
    outOfLimits (q.startOf now) (q.endOf now) q.grain now = false := by
  by_cases hend : EndDated q now
  · have hstart := startOf_undated (h.resolve_right (not_not.2 hend))
    obtain ⟨r, e, -, he, -, -, hiff, -⟩ := endOf_spec hend
    have hnear : ¬ now + 32 * dayMilliseconds < e := fun hover => hlate ⟨hend, hiff.2 hover⟩
    rw [hstart, he, outOfLimits, Option.any_some, decide_eq_false hnear]
    rfl
  · rw [endOf_undated hend, outOfLimits]
    cases q.startOf now with
    | none => rfl
    | some s => rfl

/-- The default window of a month of 31 days that no month is read before. -/
theorem defaultWindow {s n : Int} (hstart : q.start = none) (hend : q.end_ = none)
    (hgrain : q.grain ≠ .minute) (hbucket : Bucket .month s n) (hle : s ≤ now) (hlt : now < n)
    (hnext : AlignedTo .month n) (hdays : n = s + 31 * dayMilliseconds) :
    q.startOf now = some s ∧ q.endOf now = some n ∧
      outOfLimits (some s) (some n) q.grain now = false ∧
      previousStart (some s) (some n) = monthStart (s - 1) := by
  have hmonth : monthStart now = some s := hbucket.start now hle hlt
  refine ⟨?_, ?_, ?_, ?_⟩
  · rw [UsageQuery.startOf, UsageQuery.requestedStart, hstart, hmonth]
    exact aligned_monthStart q.grain hmonth
  · rw [UsageQuery.endOf, UsageQuery.suppliedEnd, hend, hmonth, Option.bind_some, hbucket.next]
    exact if_pos (aligned_monthStart q.grain hnext)
  · have hspan : 366 ≤ longestSpan q.grain := by
      cases hq : q.grain with
      | minute => exact absurd hq hgrain
      | day => decide
      | month => decide
    simp only [outOfLimits, compareNumbers, Option.any_some, Bool.or_eq_false_iff,
      decide_eq_false_iff_not, not_le, not_lt, gt_iff_lt]
    unfold dayMilliseconds at *
    omega
  · have hnatural := naturalMonth_iff.2 ⟨hbucket.start_self, hbucket.next⟩
    rw [previousStart, Option.bind_some, Option.bind_some, if_pos hnatural]

/-- The current month may be answered for although it has no month before it. -/
theorem answer_unpreceded (hbefore : ¬ MonthBefore q now) (hend : EndDated q now) :
    ∃ s e, q.startOf now = some s ∧ q.endOf now = some e ∧
      outOfLimits (some s) (some e) q.grain now = false ∧
      ∀ p, previousStart (some s) (some e) = some p → ¬ p < s := by
  unfold MonthBefore at hbefore
  simp only [Classical.not_imp] at hbefore
  obtain ⟨hstart, hnone, hgrain, hnow⟩ := hbefore
  unfold EndDated at hend
  rw [hnone] at hend
  by_cases hfirst : now < secondMonth
  · have hbucket : Bucket .month firstDate secondMonth := by
      have hmay := bucket_month (y := -271821) (m := 4) (.inl (by decide)) (by decide) (by decide)
        (by decide)
      have hjune : Calendar.firstDay (-271821) (4 + 1) = -99999958 := by decide
      rwa [firstDay_dates.1, hjune] at hmay
    have hnext : AlignedTo .month secondMonth :=
      show monthStart secondMonth = some secondMonth by decide +kernel
    obtain ⟨hs, he, hlimits, hprevious⟩ := defaultWindow hstart hnone hgrain hbucket hend.1 hfirst
      hnext (by decide)
    refine ⟨_, _, hs, he, hlimits, fun p hp _ => ?_⟩
    have hearly := monthStart_early (show firstDate - 1 < firstDate by omega)
    exact nomatch hearly.symm.trans (hprevious.symm.trans hp)
  · have hhundred : dateStart ≤ now ∧ now < dateStart + 31 * dayMilliseconds := by
      by_contra hout
      exact hnow ⟨not_lt.1 hfirst, hout⟩
    have hbucket : Bucket .month dateStart (dateStart + 31 * dayMilliseconds) :=
      bucket_month (y := 100) (m := 0) (.inr (by decide)) (by decide) (by decide) (by decide)
    have hnext : AlignedTo .month (dateStart + 31 * dayMilliseconds) :=
      show monthStart _ = some (dateStart + 31 * dayMilliseconds) by decide +kernel
    obtain ⟨hs, he, hlimits, hprevious⟩ := defaultWindow hstart hnone hgrain hbucket hhundred.1
      hhundred.2 hnext rfl
    refine ⟨_, _, hs, he, hlimits, fun p hp => ?_⟩
    -- December 99 is read as the one of 1999.
    have hdecember : monthStart (dateStart - 1) = some 943977600000 := by decide +kernel
    obtain rfl := Option.some.inj (hdecember.symm.trans (hprevious.symm.trans hp))
    decide

end Answers

/-- **A query answers for a well-formed window exactly when its bounds are dates.** Over the
buckets of any run and for every query and clock: all answers are well formed if and only if both
bounds, and the month before a default window, are dates the code reads as they are, or the query
is refused, because its window ends late or its user has no quota. Everything else, an end before
the start or too long a span, is refused as it should be. -/
theorem query_wellFormed_iff (codec : Codec) (calls : List UsageCall) (q : UsageQuery)
    (now : Int) :
    let db := (Ledger.run codec calls).db
    (∀ dto, query q now db = .ok dto → ∃ s e, WellFormed q now dto s e) ↔ Answerable q now db := by
  intro db
  have haligned := (agrees_run codec calls).aligned
  constructor
  · intro hall
    by_contra hnot
    unfold Answerable at hnot
    rw [not_or, not_or] at hnot
    obtain ⟨hdated, hlate, hquota⟩ := hnot
    obtain ⟨quota, hquota⟩ : ∃ quota, quotaOf q now db = .ok quota := by
      cases hresult : quotaOf q now db with
      | ok quota => exact ⟨quota, rfl⟩
      | error e => exact absurd ⟨e, hresult⟩ hquota
    by_cases hundated : ¬ StartDated q now ∨ ¬ EndDated q now
    · -- A bound is `NaN`, and so is that of the answer.
      have hlimits := outOfLimits_undated hundated hlate
      obtain ⟨s, e, hwf⟩ := hall _ (query_eq_ok.2 ⟨hlimits, quota, hquota, rfl⟩)
      rcases hundated with hstart | hend
      · exact nomatch (startOf_undated hstart).symm.trans hwf.start
      · exact nomatch (endOf_undated hend).symm.trans hwf.end_
    · rw [not_or, not_not, not_not] at hundated
      obtain ⟨hstart, hend⟩ := hundated
      have hbefore : ¬ MonthBefore q now := fun hbefore => hdated ⟨hstart, hend, hbefore⟩
      obtain ⟨s, e, hs, he, hlimits, hprevious⟩ := answer_unpreceded hbefore hend
      rw [← hs, ← he] at hlimits hprevious
      obtain ⟨s', e', hwf⟩ := hall _ (query_eq_ok.2 ⟨hlimits, quota, hquota, rfl⟩)
      obtain ⟨p, hp, -, hlt, -⟩ := hwf.previous
      obtain rfl := Option.some.inj (hs.symm.trans hwf.start)
      exact hprevious p hp hlt
  · intro hanswerable dto hok
    obtain ⟨hlimits, quota, hquota, rfl⟩ := query_eq_ok.1 hok
    rcases hanswerable with ⟨hstart, hend, hbefore⟩ | ⟨hend, hlate⟩ | ⟨error, herror⟩
    · exact answerQuery_wellFormed haligned hstart hend hbefore hlimits quota
    · exact absurd hok (query_late hend hlate _)
    · exact nomatch hquota.symm.trans herror

/-- A query by month from the largest integer on is answered, from `NaN` on. -/
theorem query_notANumber :
    ¬ ∀ (codec : Codec) (calls : List UsageCall) (q : UsageQuery) (now : Int) (dto : UsageDto),
      query q now (Ledger.run codec calls).db = .ok dto → ∃ s e, WellFormed q now dto s e := by
  intro hall
  obtain ⟨s, e, hwf⟩ := hall newYearCodec []
    { start := some 9007199254740991, grain := .month, start_nonnegative := by decide
      end_positive := by decide } 1700000000000 _ (query_eq_ok.2 ⟨by decide +kernel, none, rfl, rfl⟩)
  exact nomatch hwf.start

end Bifurcation.Panel
