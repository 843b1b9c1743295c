import Bifurcation.Panel.Time
import Bifurcation.Lib.Apportion

/-!
# Byte attribution

`splitBytes` divides the bytes of an interval among the buckets it touches, and `rollupMinutes`
adds up the minutes of a day or a month.

**Telescoping.** The overlaps of consecutive buckets with the interval sum to its length: what
one bucket leaves of the interval is what the rest of the loop divides. So the rounded-down
shares are short of the bytes by at most one for each bucket, and the loop over the remainder
brings the total back.

**Same buckets.** The starts do not depend on the bytes. The upload and the download of a delta
are therefore aligned index by index, before and after the rollup.

Main results: `splitBytes_spec`, `rollupMinutes_spec`, `rollupMinutes_rollupMinutes` and
`byte_attribution`.
-/

namespace Bifurcation.Panel

/-! ## Consecutive buckets -/

/-- The buckets from `b` on that reach up to `end_`: each starts where the last one ends. -/
inductive Covers (grain : Grain) (end_ : Int) : Int → List Int → Prop
  | last {b n : Int} (bucket : Bucket grain b n) (before : b < end_) (reached : end_ ≤ n) :
      Covers grain end_ b [b]
  | cons {b n : Int} {starts : List Int} (bucket : Bucket grain b n) (before : n < end_)
      (rest : Covers grain end_ n starts) : Covers grain end_ b (b :: starts)

section Covers

variable {grain : Grain} {end_ first : Int} {starts : List Int}

theorem Covers.bucket (h : Covers grain end_ first starts) : ∃ n, Bucket grain first n := by
  cases h with
  | last bucket => exact ⟨_, bucket⟩
  | cons bucket => exact ⟨_, bucket⟩

/-- Every one of the buckets starts before the end and reaches beyond the first start. -/
theorem Covers.touched (h : Covers grain end_ first starts) {b : Int} (hb : b ∈ starts) :
    ∃ n, Bucket grain b n ∧ first ≤ b ∧ b < end_ := by
  induction h with
  | last bucket before reached =>
    obtain rfl := List.mem_singleton.1 hb
    exact ⟨_, bucket, le_rfl, before⟩
  | cons bucket before rest ih =>
    have hlong := bucket.long
    rcases List.mem_cons.1 hb with rfl | hb
    · exact ⟨_, bucket, le_rfl, by omega⟩
    · obtain ⟨n, hbucket, hle, hlt⟩ := ih hb
      exact ⟨n, hbucket, by omega, hlt⟩

end Covers

/-- The part of a bucket that lies in the interval. -/
def overlapOf (grain : Grain) (start end_ b : Int) : Int :=
  min end_ ((nextBucket b grain).getD b) - max start b

theorem overlapOf_eq {grain : Grain} {b n : Int} (h : Bucket grain b n) (start end_ : Int) :
    overlapOf grain start end_ b = min end_ n - max start b := by
  rw [overlapOf, h.next, Option.getD_some]

/-- The overlaps of consecutive buckets telescope. -/
theorem Covers.sum_overlapOf {grain : Grain} {start end_ first n : Int} {starts : List Int}
    (h : Covers grain end_ first starts) (hfirst : Bucket grain first n) (hstart : start < n) :
    (starts.map (overlapOf grain start end_)).sum = end_ - max start first := by
  induction h generalizing n with
  | last bucket before reached =>
    rw [List.map_singleton, List.sum_singleton, overlapOf_eq bucket, min_eq_left reached]
  | @cons b m starts bucket before rest ih =>
    obtain rfl := Option.some.inj (bucket.next.symm.trans hfirst.next)
    obtain ⟨n', hn'⟩ := rest.bucket
    have hlong := hn'.long
    rw [List.map_cons, List.sum_cons, ih hn' (by omega), overlapOf_eq bucket,
      min_eq_right before.le]
    omega

/-- A bucket that is touched has a part in the interval. -/
theorem Covers.overlapOf_nonneg {grain : Grain} {start end_ first n : Int} {starts : List Int}
    (h : Covers grain end_ first starts) (hfirst : Bucket grain first n) (hstart : start < n)
    (hlt : start < end_) {b : Int} (hb : b ∈ starts) : 0 ≤ overlapOf grain start end_ b := by
  induction h generalizing n with
  | last bucket before reached =>
    obtain rfl := List.mem_singleton.1 hb
    rw [overlapOf_eq bucket]
    omega
  | @cons b' n' starts bucket before rest ih =>
    obtain rfl := Option.some.inj (bucket.next.symm.trans hfirst.next)
    have hlong := bucket.long
    rcases List.mem_cons.1 hb with rfl | hb
    · rw [overlapOf_eq bucket]
      omega
    · obtain ⟨n'', hn''⟩ := rest.bucket
      have hlong' := hn''.long
      exact ih hn'' (by omega) hb

/-! ## The loop -/

/-- What the loop of `splitBytes` gives for some buckets. -/
def floorShares (grain : Grain) (start end_ bytes : Int) (starts : List Int) : List Share :=
  starts.map fun b => ⟨some b, (bytes * overlapOf grain start end_ b).tdiv (end_ - start)⟩

section Loop

variable {grain : Grain} {start end_ bytes : Int}

/-- The loop runs through consecutive buckets until the end is reached. -/
theorem sharesFrom_spec (hstart : 0 ≤ start) (hlt : start < end_)
    (hdate : grain = .month → end_ ≤ dateEnd) (fuel : ℕ) {current : Int}
    (hbucket : bucketStart (max start current) grain = some current) (hcurrent : current < end_)
    (hfuel : end_ - current ≤ fuel * 60000) :
    ∃ starts, Covers grain end_ current starts ∧
      ∀ bytes, sharesFrom start end_ bytes grain fuel current =
        some (floorShares grain start end_ bytes starts) := by
  induction fuel generalizing current with
  | zero => omega
  | succ fuel ih =>
    have hepoch : dateStart ≤ max start current := by
      unfold dateStart
      omega
    obtain ⟨n, hb, -, hle, hn⟩ := bucket_of_start hepoch
      (fun hmonth => by have hmax := hdate hmonth; omega) hbucket
    have hne : ¬ end_ - start = 0 := by omega
    have hlong := hb.long
    by_cases hreached : end_ ≤ n
    · -- The last bucket: the loop stops behind it.
      have hstop : ∀ bytes, sharesFrom start end_ bytes grain fuel n = some [] := by
        intro bytes
        cases fuel with
        | zero => rfl
        | succ fuel => rw [sharesFrom, if_neg (by omega)]
      refine ⟨[current], .last hb hcurrent hreached, fun bytes => ?_⟩
      simp only [sharesFrom, if_pos hcurrent, hb.next, Option.bind_eq_bind, Option.bind_some,
        if_neg hne, hstop, Option.pure_def, floorShares, List.map_cons, List.map_nil,
        overlapOf_eq hb]
    · have hnext := hb.start_next (by omega) (fun hmonth => by have hmax := hdate hmonth; omega)
      have hmax : max start n = n := by omega
      obtain ⟨starts, hcovers, hloop⟩ := ih
        (show bucketStart (max start n) grain = some n by rw [hmax, hnext]) (by omega)
        (by push_cast at hfuel; omega)
      refine ⟨current :: starts, .cons hb (by omega) hcovers, fun bytes => ?_⟩
      simp only [sharesFrom, if_pos hcurrent, hb.next, Option.bind_eq_bind, Option.bind_some,
        if_neg hne, hloop, Option.pure_def, floorShares, List.map_cons, overlapOf_eq hb]

end Loop

/-! ## The remainder -/

theorem map_start_distribute (remainder : Int) (shares : List Share) :
    (distribute remainder shares).map Share.start = shares.map Share.start := by
  induction shares generalizing remainder with
  | nil => rfl
  | cons s shares ih =>
    rw [distribute]
    by_cases hzero : remainder = 0
    · rw [if_pos hzero]
    · rw [if_neg hzero, List.map_cons, ih, List.map_cons]

/-- The loop over the remainder hands it out. -/
theorem map_bytes_distribute (remainder : Int) (shares : List Share) :
    (distribute remainder shares).map Share.bytes =
      Apportion.handOut remainder (shares.map Share.bytes) := by
  induction shares generalizing remainder with
  | nil => rfl
  | cons s shares ih =>
    rw [distribute, List.map_cons, Apportion.handOut]
    by_cases hzero : remainder = 0
    · rw [if_pos hzero, if_pos hzero, List.map_cons]
    · rw [if_neg hzero, if_neg hzero, List.map_cons, ih]

/-- No bucket gets more than one byte of the remainder. -/
theorem mem_distribute {remainder : Int} {shares : List Share} {s : Share}
    (h : s ∈ distribute remainder shares) :
    ∃ s₀ ∈ shares, s.start = s₀.start ∧ (s.bytes = s₀.bytes ∨ s.bytes = s₀.bytes + 1) := by
  induction shares generalizing remainder with
  | nil => cases h
  | cons s₀ shares ih =>
    rw [distribute] at h
    by_cases hzero : remainder = 0
    · rw [if_pos hzero] at h
      exact ⟨s, h, rfl, .inl rfl⟩
    · rw [if_neg hzero] at h
      rcases List.mem_cons.1 h with rfl | h
      · exact ⟨s₀, List.mem_cons_self, rfl, .inr rfl⟩
      · obtain ⟨s₁, hs₁, hspec⟩ := ih h
        exact ⟨s₁, List.mem_cons_of_mem _ hs₁, hspec⟩

/-! ## Splitting -/

/-- The shares of an interval: consecutive calendar buckets that cover it, whose bytes are
proportional to what they cover. -/
structure Split (grain : Grain) (start end_ bytes : Int) (starts : List Int)
    (shares : List Share) : Prop where
  /-- The buckets follow each other from the one of `start` on, up to the end. -/
  covers : ∃ first, bucketStart start grain = some first ∧ Covers grain end_ first starts
  starts : shares.map Share.start = starts.map some
  nonneg : ∀ s ∈ shares, 0 ≤ s.bytes
  total : shareTotal shares = bytes
  near : ∀ s ∈ shares, ∃ b, s.start = some b ∧
    (s.bytes = bytes * overlapOf grain start end_ b / (end_ - start) ∨
      s.bytes = bytes * overlapOf grain start end_ b / (end_ - start) + 1)

/-- **Splitting is exact.** The buckets do not depend on the bytes. -/
theorem splitBytes_spec {start end_ : Int} (hstart : 0 ≤ start) (hlt : start < end_)
    (grain : Grain) (hdate : grain = .month → end_ ≤ dateEnd) :
    ∃ starts, ∀ bytes, 0 ≤ bytes → ∃ shares, splitBytes start end_ bytes grain = some shares ∧
      Split grain start end_ bytes starts shares := by
  obtain ⟨first, n, hb, -, hle, hn⟩ := bucket_spec grain (t := start)
    (by unfold dateStart; omega) (fun hmonth => by have hmax := hdate hmonth; omega)
  have hfirst := hb.start start hle hn
  obtain ⟨starts, hcovers, hloop⟩ := sharesFrom_spec hstart hlt hdate
    ((end_ - first) / 60000 + 1).toNat
    (show bucketStart (max start first) grain = some first by rw [max_eq_left hle, hfirst])
    (by omega) (by omega)
  refine ⟨starts, fun bytes hbytes => ?_⟩
  -- The rounded-down shares, over weights that sum to the length of the interval.
  have hfloors : (floorShares grain start end_ bytes starts).map Share.bytes =
      Apportion.floors bytes (end_ - start) (starts.map (overlapOf grain start end_)) := by
    rw [floorShares, Apportion.floors, List.map_map, List.map_map]
    refine List.map_congr_left fun b hmem => ?_
    have hnonneg := hcovers.overlapOf_nonneg hb hn hlt hmem
    exact Int.tdiv_eq_ediv_of_nonneg (Int.mul_nonneg hbytes hnonneg)
  have hsum := hcovers.sum_overlapOf hb hn
  rw [max_eq_left hle] at hsum
  obtain ⟨hlow, hhigh⟩ := Apportion.remainder_bounds bytes (by omega) hsum
  rw [← hfloors] at hlow hhigh
  have hlen : (starts.map (overlapOf grain start end_)).length =
      ((floorShares grain start end_ bytes starts).map Share.bytes).length := by
    rw [List.length_map, List.length_map, floorShares, List.length_map]
  rw [hlen] at hhigh
  have hfair : ∀ s ∈ floorShares grain start end_ bytes starts, ∃ b, s.start = some b ∧
      s.bytes = bytes * overlapOf grain start end_ b / (end_ - start) ∧ 0 ≤ s.bytes := by
    intro s hs
    obtain ⟨b, hmem, rfl⟩ := List.mem_map.1 hs
    have hprod := Int.mul_nonneg hbytes (hcovers.overlapOf_nonneg hb hn hlt hmem)
    have hdiv := Int.tdiv_eq_ediv_of_nonneg (b := end_ - start) hprod
    exact ⟨b, rfl, hdiv, hdiv ▸ Int.ediv_nonneg hprod (by omega)⟩
  refine ⟨distribute (bytes - shareTotal (floorShares grain start end_ bytes starts))
    (floorShares grain start end_ bytes starts), ?_, ⟨first, hfirst, hcovers⟩, ?_, ?_, ?_, ?_⟩
  · simp only [splitBytes, hfirst, hloop, Option.bind_eq_bind, Option.bind_some, Option.pure_def]
  · rw [map_start_distribute, floorShares, List.map_map]
    rfl
  · intro s hs
    obtain ⟨s₀, hs₀, -, hbytes'⟩ := mem_distribute hs
    obtain ⟨b, -, -, hnonneg⟩ := hfair s₀ hs₀
    omega
  · rw [shareTotal, map_bytes_distribute, shareTotal, Apportion.sum_handOut hlow hhigh]
    omega
  · intro s hs
    obtain ⟨s₀, hs₀, hstart', hbytes'⟩ := mem_distribute hs
    obtain ⟨b, hb', hfloor, -⟩ := hfair s₀ hs₀
    exact ⟨b, hstart'.trans hb', hfloor ▸ hbytes'⟩

/-! ## Rolling up -/

/-- Whether a minute lies in the bucket `[b, n)`. -/
def Share.inside (b n : Int) (minute : Share) : Bool :=
  minute.start.any fun time => b ≤ time ∧ time < n

/-- The minutes rolled up to a coarser grain: every bucket that has a minute, with the bytes of
its minutes. -/
structure Rollup (grain : Grain) (minutes shares : List Share) : Prop where
  total : shareTotal shares = shareTotal minutes
  distinct : (shares.map Share.start).Nodup
  every : ∀ m ∈ minutes, ∃ s ∈ shares, s.start = m.bucketOf grain
  exact : ∀ s ∈ shares, ∃ b n, s.start = some b ∧ Bucket grain b n ∧
    s.bytes = shareTotal (minutes.filter (Share.inside b n))

theorem rollupMinutes_eq {grain : Grain} (hgrain : grain ≠ .minute) (minutes : List Share) :
    rollupMinutes minutes grain =
      (Grouping.group (fun minute => minute.bucketOf grain) Share.bytes minutes).map fun bucket =>
        ⟨bucket.1, bucket.2⟩ := by
  cases grain with
  | minute => exact absurd rfl hgrain
  | day => rfl
  | month => rfl

/-- The rollups of two lists of the same minutes are aligned. -/
theorem map_start_rollupMinutes {ups downs : List Share} (grain : Grain)
    (h : ups.map Share.start = downs.map Share.start) :
    (rollupMinutes ups grain).map Share.start = (rollupMinutes downs grain).map Share.start := by
  by_cases hgrain : grain = .minute
  · rw [hgrain]
    exact h
  · have hkeys : ups.map (fun minute => minute.bucketOf grain) =
        downs.map (fun minute => minute.bucketOf grain) := by
      have hbind := congrArg (List.map fun start : Option Int =>
        start.bind fun time => bucketStart time grain) h
      rw [List.map_map, List.map_map] at hbind
      exact hbind
    have hgroups := Grouping.keys_group_congr Share.bytes Share.bytes hkeys
    rw [rollupMinutes_eq hgrain, rollupMinutes_eq hgrain, List.map_map, List.map_map]
    exact hgroups

/-- The rollup keeps the total. -/
theorem shareTotal_rollupMinutes (minutes : List Share) (grain : Grain) :
    shareTotal (rollupMinutes minutes grain) = shareTotal minutes := by
  by_cases hgrain : grain = .minute
  · rw [hgrain]
    rfl
  · rw [rollupMinutes_eq hgrain, shareTotal, List.map_map]
    exact Grouping.total_group minutes

/-- The times of some minutes are within the dates of a grain. -/
def Dated (grain : Grain) (minutes : List Share) : Prop :=
  ∀ m ∈ minutes, ∃ t, m.start = some t ∧ dateStart ≤ t ∧ (grain = .month → t < dateEnd)

/-- **Rolling up is exact.** -/
theorem rollupMinutes_spec {grain : Grain} (hgrain : grain ≠ .minute) {minutes : List Share}
    (hdated : Dated grain minutes) : Rollup grain minutes (rollupMinutes minutes grain) := by
  refine ⟨shareTotal_rollupMinutes minutes grain, ?_, fun m hm => ?_, fun s hs => ?_⟩
  · rw [rollupMinutes_eq hgrain, List.map_map]
    exact Grouping.nodup_group minutes
  · have hkey := (Grouping.mem_keys_group (fun m : Share => m.bucketOf grain) Share.bytes).2
      ⟨m, hm, rfl⟩
    obtain ⟨bucket, hbucket, heq⟩ := List.mem_map.1 hkey
    rw [rollupMinutes_eq hgrain]
    exact ⟨_, List.mem_map_of_mem hbucket, heq⟩
  · rw [rollupMinutes_eq hgrain] at hs
    obtain ⟨bucket, hbucket, rfl⟩ := List.mem_map.1 hs
    obtain ⟨m, hm, hkey⟩ := (Grouping.mem_keys_group _ _).1 (List.mem_map_of_mem hbucket)
    obtain ⟨t, ht, hlow, hdate⟩ := hdated m hm
    obtain ⟨b, n, hb, -, hle, hlt⟩ := bucket_spec grain hlow hdate
    have hstart : bucket.1 = some b := by
      rw [← hkey, Share.bucketOf, ht, Option.bind_some, hb.start t hle hlt]
    refine ⟨b, n, hstart, hb, ?_⟩
    -- The minutes of this bucket are those inside it.
    have hfilter : minutes.filter (fun m => m.bucketOf grain = bucket.1) =
        minutes.filter (Share.inside b n) := by
      refine List.filter_congr fun m' hm' => ?_
      obtain ⟨t', ht', hlow', hdate'⟩ := hdated m' hm'
      have hinside : m'.inside b n = decide (b ≤ t' ∧ t' < n) := by
        rw [Share.inside, ht', Option.any_some]
      rw [hinside, hstart, Share.bucketOf, ht', Option.bind_some]
      refine decide_eq_decide.2 ⟨fun hsame => ?_, fun hin => hb.start t' hin.1 hin.2⟩
      obtain ⟨n', hb', -, hle', hlt'⟩ := bucket_of_start hlow' hdate' hsame
      obtain rfl := Option.some.inj (hb'.next.symm.trans hb.next)
      exact ⟨hle', hlt'⟩
    rw [shareTotal, ← hfilter]
    exact Grouping.of_mem_group hbucket

/-- **Days roll up to months like minutes.** -/
theorem rollupMinutes_rollupMinutes {minutes : List Share}
    (hdated : ∀ m ∈ minutes, ∃ t, m.start = some t ∧ dateStart ≤ t ∧ t ≤ lastDate) :
    rollupMinutes (rollupMinutes minutes .day) .month = rollupMinutes minutes .month := by
  have hcoarse : ∀ m ∈ minutes, (m.bucketOf .day).bind (bucketStart · .month) =
      m.bucketOf .month := by
    intro m hm
    obtain ⟨t, ht, hlow, hdate⟩ := hdated m hm
    show (m.start.bind fun time => bucketStart time .day).bind (bucketStart · .month) = _
    rw [Share.bucketOf, ht]
    exact bucketStart_day hlow hdate
  have hgroup := Grouping.group_group (fun m : Share => m.bucketOf .day) Share.bytes
    (fun day => day.bind (bucketStart · .month)) minutes
  rw [Grouping.group_congr hcoarse] at hgroup
  have hday : Grain.day ≠ .minute := nofun
  have hmonth : Grain.month ≠ .minute := nofun
  rw [rollupMinutes_eq hmonth, rollupMinutes_eq hday, rollupMinutes_eq hmonth, Grouping.group_map]
  exact congrArg (List.map _) hgroup

/-! ## How many buckets there are -/

/-- The minutes of an interval: one for each that has started, and at most two for its ends. -/
theorem Covers.length_minutes {end_ first : Int} {starts : List Int}
    (h : Covers .minute end_ first starts) :
    (starts.length : Int) * 60000 ≤ end_ - first + 59999 := by
  induction h with
  | last bucket before reached =>
    rw [List.length_singleton]
    omega
  | cons bucket before rest ih =>
    have hnext := Option.some.inj bucket.next
    rw [List.length_cons]
    push_cast
    omega

/-- Two days in a row have at most two months, or one month and `NaN`. -/
theorem months_of_two_days (day : Int) (hlow : dateStart ≤ day)
    (hday : sizedStart dayMilliseconds day = day) :
    ∃ a b, ∀ t, day ≤ t → t < day + 2 * dayMilliseconds → monthStart t = a ∨ monthStart t = b := by
  have hsized : ∀ t, day ≤ t → t < day + 2 * dayMilliseconds →
      sizedStart dayMilliseconds t = day ∨ sizedStart dayMilliseconds t = day + dayMilliseconds := by
    intro t hle hlt
    unfold sizedStart dayMilliseconds at *
    omega
  have hmonth : ∀ t, dateStart ≤ t → t < dateEnd →
      monthStart (sizedStart dayMilliseconds t) = monthStart t := fun t hlow hdate =>
    bucketStart_day hlow (by unfold dateEnd at hdate; unfold lastDate; omega)
  by_cases hearly : day + 2 * dayMilliseconds ≤ dateEnd
  · refine ⟨monthStart day, monthStart (day + dayMilliseconds), fun t hle hlt => ?_⟩
    rw [← hmonth t (by omega) (by omega)]
    rcases hsized t hle hlt with heq | heq
    · exact .inl (by rw [heq])
    · exact .inr (by rw [heq])
  · by_cases hlate : dateEnd ≤ day
    · refine ⟨some dateEnd, none, fun t hle _ => ?_⟩
      rw [monthStart_late (by omega)]
      by_cases hclip : t ≤ lastDate
      · exact .inl (if_pos hclip)
      · exact .inr (if_neg hclip)
    · -- The first of the two days is the last one before `dateEnd`.
      have hlast : day = dateEnd - dayMilliseconds := by
        unfold sizedStart shanghaiOffset dayMilliseconds dateEnd at *
        omega
      refine ⟨monthStart day, some dateEnd, fun t hle hlt => ?_⟩
      by_cases hbefore : t < dateEnd
      · left
        have hfirst : sizedStart dayMilliseconds t = day := by
          rcases hsized t hle hlt with heq | heq
          · exact heq
          · have hbelow : sizedStart dayMilliseconds t ≤ t := by
              unfold sizedStart dayMilliseconds
              omega
            omega
        rw [← hmonth t (by omega) hbefore, hfirst]
      · right
        rw [monthStart_late (not_lt.1 hbefore), if_pos]
        unfold dateEnd dayMilliseconds at *
        unfold lastDate
        omega

/-- A list without repetitions whose members are two values. -/
theorem length_le_two {α : Type*} {l : List α} (hnodup : l.Nodup) {a b : α}
    (h : ∀ x ∈ l, x = a ∨ x = b) : l.length ≤ 2 := by
  have hsub : l ⊆ [a, b] := by
    intro x hx
    rcases h x hx with rfl | rfl
    · exact List.mem_cons_self
    · exact List.mem_cons_of_mem _ List.mem_cons_self
  exact (hnodup.subperm hsub).length_le

/-- An interval of at most a day touches at most two days and two months. -/
theorem length_rollupMinutes {start end_ bytes : Int} {starts : List Int} {minutes : List Share}
    (h : Split .minute start end_ bytes starts minutes) (hstart : 0 ≤ start)
    (hday : end_ - start ≤ dayMilliseconds) {grain : Grain} (hgrain : grain ≠ .minute) :
    (rollupMinutes minutes grain).length ≤ 2 := by
  obtain ⟨first, hfirst, hcovers⟩ := h.covers
  have hepoch : dateStart ≤ start := by
    unfold dateStart
    omega
  obtain rfl := Option.some.inj hfirst
  have hsame : ∀ m ∈ minutes, ∃ t, m.start = some t ∧ sizedStart dayMilliseconds start ≤ t ∧
      t < sizedStart dayMilliseconds start + 2 * dayMilliseconds := by
    intro m hm
    obtain ⟨t, ht, heq⟩ := List.mem_map.1 (h.starts ▸ List.mem_map_of_mem hm)
    obtain ⟨n, -, hle, hlt⟩ := hcovers.touched ht
    refine ⟨t, heq.symm, ?_, ?_⟩
    · unfold sizedStart dayMilliseconds at *
      omega
    · unfold sizedStart dayMilliseconds at *
      omega
  have hkeys : ∃ a b, ∀ m ∈ minutes, m.bucketOf grain = a ∨ m.bucketOf grain = b := by
    cases grain with
    | minute => exact absurd rfl hgrain
    | day =>
      refine ⟨some (sizedStart dayMilliseconds start),
        some (sizedStart dayMilliseconds start + dayMilliseconds), fun m hm => ?_⟩
      obtain ⟨t, ht, hle, hlt⟩ := hsame m hm
      have hsized : sizedStart dayMilliseconds t = sizedStart dayMilliseconds start ∨
          sizedStart dayMilliseconds t = sizedStart dayMilliseconds start + dayMilliseconds := by
        unfold sizedStart dayMilliseconds at *
        omega
      have hbucket : m.bucketOf .day = some (sizedStart dayMilliseconds t) := by
        rw [Share.bucketOf, ht]
        rfl
      rw [hbucket]
      exact hsized.imp (congrArg some) (congrArg some)
    | month =>
      obtain ⟨a, b, hab⟩ := months_of_two_days (sizedStart dayMilliseconds start)
        (by unfold sizedStart shanghaiOffset dayMilliseconds dateStart at *; omega)
        (by unfold sizedStart shanghaiOffset dayMilliseconds; omega)
      refine ⟨a, b, fun m hm => ?_⟩
      obtain ⟨t, ht, hle, hlt⟩ := hsame m hm
      have hbucket : m.bucketOf .month = monthStart t := by
        rw [Share.bucketOf, ht]
        rfl
      rw [hbucket]
      exact hab t hle hlt
  obtain ⟨a, b, hab⟩ := hkeys
  have hnodup : ((rollupMinutes minutes grain).map Share.start).Nodup := by
    rw [rollupMinutes_eq hgrain, List.map_map]
    exact Grouping.nodup_group minutes
  rw [← List.length_map Share.start]
  refine length_le_two hnodup (a := a) (b := b) fun x hx => ?_
  rw [rollupMinutes_eq hgrain, List.map_map] at hx
  obtain ⟨m, hm, rfl⟩ := (Grouping.mem_keys_group _ _).1 hx
  exact hab m hm

/-! ## Attribution -/

/-- The minutes of a split lie in its interval, or in the minute it starts in. -/
theorem Split.minutes_within {start end_ bytes : Int} {starts : List Int} {minutes : List Share}
    (h : Split .minute start end_ bytes starts minutes) (hstart : 0 ≤ start) :
    ∀ m ∈ minutes, ∃ t, m.start = some t ∧ dateStart ≤ t ∧ t < end_ := by
  intro m hm
  obtain ⟨first, hfirst, hcovers⟩ := h.covers
  obtain ⟨b, hb, heq⟩ := List.mem_map.1 (h.starts ▸ List.mem_map_of_mem hm)
  obtain ⟨n, -, hle, hlt⟩ := hcovers.touched hb
  have hepoch : dateStart ≤ start := by
    unfold dateStart
    omega
  obtain ⟨n', -, hlow, -⟩ := bucket_of_start hepoch (fun h : Grain.minute = .month => nomatch h) hfirst
  exact ⟨b, heq.symm, by omega, hlt⟩

/-- The minutes of a split are within the dates. -/
theorem Split.dated {grain : Grain} {start end_ bytes : Int} {starts : List Int}
    {minutes : List Share} (h : Split .minute start end_ bytes starts minutes) (hstart : 0 ≤ start)
    (hdate : grain = .month → end_ ≤ dateEnd) : Dated grain minutes := by
  intro m hm
  obtain ⟨t, ht, hlow, hlt⟩ := h.minutes_within hstart m hm
  exact ⟨t, ht, hlow, fun hmonth => by have hmax := hdate hmonth; omega⟩

/-- **Attribution is exact and consistent across grains.** For the upload and the download of an
interval: every split is exact over the same buckets, the minutes roll up side by side without
losing a byte, every day and month gets its minutes, and the days of the rollup roll up to its
months. The times are those of `Date`, where the arithmetic on doubles is exact; what needs the
end of a month is said of the intervals up to `dateEnd`. -/
theorem byte_attribution {start end_ upload download : Int} (hstart : 0 ≤ start)
    (hlt : start < end_) (_hrange : end_ ≤ 8640000000000000) (hup : 0 ≤ upload)
    (hdown : 0 ≤ download) :
    (∀ grain, (grain = .month → end_ ≤ dateEnd) → ∃ starts ups downs,
      splitBytes start end_ upload grain = some ups ∧
      splitBytes start end_ download grain = some downs ∧
      Split grain start end_ upload starts ups ∧ Split grain start end_ download starts downs) ∧
    ∃ ups downs, splitBytes start end_ upload .minute = some ups ∧
      splitBytes start end_ download .minute = some downs ∧
      (∀ grain, shareTotal (rollupMinutes ups grain) = upload ∧
        shareTotal (rollupMinutes downs grain) = download ∧
        (rollupMinutes ups grain).map Share.start =
          (rollupMinutes downs grain).map Share.start) ∧
      (∀ grain, grain ≠ .minute → (grain = .month → end_ ≤ dateEnd) →
        Rollup grain ups (rollupMinutes ups grain) ∧
        Rollup grain downs (rollupMinutes downs grain)) ∧
      (end_ ≤ lastDate →
        rollupMinutes (rollupMinutes ups .day) .month = rollupMinutes ups .month ∧
        rollupMinutes (rollupMinutes downs .day) .month = rollupMinutes downs .month) := by
  constructor
  · intro grain hdate
    obtain ⟨starts, hsplit⟩ := splitBytes_spec hstart hlt grain hdate
    obtain ⟨ups, hups, hsups⟩ := hsplit upload hup
    obtain ⟨downs, hdowns, hsdowns⟩ := hsplit download hdown
    exact ⟨starts, ups, downs, hups, hdowns, hsups, hsdowns⟩
  · obtain ⟨starts, hsplit⟩ := splitBytes_spec hstart hlt .minute nofun
    obtain ⟨ups, hups, hsups⟩ := hsplit upload hup
    obtain ⟨downs, hdowns, hsdowns⟩ := hsplit download hdown
    have hwithin : end_ ≤ lastDate → ∀ {bytes shares},
        Split .minute start end_ bytes starts shares →
        ∀ m ∈ shares, ∃ t, m.start = some t ∧ dateStart ≤ t ∧ t ≤ lastDate := by
      intro hend bytes shares hs m hm
      obtain ⟨t, ht, hlow, hlt⟩ := hs.minutes_within hstart m hm
      exact ⟨t, ht, hlow, by omega⟩
    refine ⟨ups, downs, hups, hdowns, fun grain => ⟨?_, ?_, ?_⟩,
      fun grain hgrain hdate => ⟨?_, ?_⟩, fun hend => ⟨?_, ?_⟩⟩
    · exact (shareTotal_rollupMinutes ups grain).trans hsups.total
    · exact (shareTotal_rollupMinutes downs grain).trans hsdowns.total
    · exact map_start_rollupMinutes grain (hsups.starts.trans hsdowns.starts.symm)
    · exact rollupMinutes_spec hgrain (hsups.dated hstart hdate)
    · exact rollupMinutes_spec hgrain (hsdowns.dated hstart hdate)
    · exact rollupMinutes_rollupMinutes (hwithin hend hsups)
    · exact rollupMinutes_rollupMinutes (hwithin hend hsdowns)

/-- An interval that starts in one month and ends in the next one. -/
theorem newYear_attribution :
    ∃ starts ups downs,
      splitBytes 1704038370000 1704038430000 7 Grain.month = some ups ∧
      splitBytes 1704038370000 1704038430000 1 Grain.month = some downs ∧
      Split Grain.month 1704038370000 1704038430000 7 starts ups ∧
      Split Grain.month 1704038370000 1704038430000 1 starts downs :=
  (@byte_attribution 1704038370000 1704038430000 7 1 (by decide) (by decide) (by decide)
    (by decide) (by decide)).1 .month fun _ => by decide

/-- The month at `dateEnd` has no end, and its bytes cannot be split. -/
theorem lastMonth_unsplit :
    ¬ ∀ (start end_ bytes : Int) (grain : Grain), 0 ≤ start → start < end_ →
      end_ ≤ 8640000000000000 → 0 ≤ bytes → ∃ starts shares,
        splitBytes start end_ bytes grain = some shares ∧
        Split grain start end_ bytes starts shares := by
  intro hall
  obtain ⟨starts, shares, hsome, -⟩ := hall 8639998934400000 8639998934400001 1 .month (by decide)
    (by decide) (by decide) (by decide)
  have hnone : splitBytes 8639998934400000 8639998934400001 1 .month = none := by decide +kernel
  exact nomatch hnone.symm.trans hsome

end Bifurcation.Panel
