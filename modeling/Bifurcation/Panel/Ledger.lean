import Bifurcation.Panel.Usage
import Bifurcation.Panel.MachineCalls

/-!
# The usage ledger

What the usage tables add up to over a run of reports and cleanups, at any clocks.

**Runs.** A ledger is the database together with the batches that were applied and the clocks of
the calls. Calls that have nothing to do with usage may change everything but the two usage
tables.

**Sums of amounts.** A committed batch adds entries, so every sum over the buckets changes by the
sum over the entries. The entries of one delta come from the same minutes at all three grains:
the sum over the days of a month, or over the minutes of a day, is a sum over the minutes that
lie in it.

**Minutes.** A minute is written or deleted by its age alone. The minutes of a day that no
cut-off has passed are all there.

Main result: `projections_agree`.
-/

namespace Bifurcation.Panel

/-! ## Amounts over sets of buckets -/

/-- What the projections agree on: the bytes, and whether some are missing. -/
def BucketRow.amount (row : BucketRow) : BucketRow := { row with estimated := false }

@[simp] theorem BucketRow.amount_zero : (0 : BucketRow).amount = 0 := rfl

@[simp] theorem BucketRow.amount_add (a b : BucketRow) : (a + b).amount = a.amount + b.amount :=
  rfl

/-- The amount of a row that is counted. -/
def counted (p : BucketKey → Bool) (key : BucketKey) (row : BucketRow) : BucketRow :=
  if p key then row.amount else 0

theorem counted_add (p : BucketKey → Bool) (key : BucketKey) (a b : BucketRow) :
    counted p key (a + b) = counted p key a + counted p key b := by
  unfold counted
  by_cases hp : p key = true
  · rw [if_pos hp, if_pos hp, if_pos hp, BucketRow.amount_add]
  · rw [if_neg hp, if_neg hp, if_neg hp, add_zero]

/-- The amount of all buckets whose keys pass a test: bytes are added, flags are joined. -/
def Database.amountOf (db : Database) (p : BucketKey → Bool) : BucketRow :=
  db.usageBuckets.sumBy (counted p)

/-- The amount of some entries. -/
def amountOf (p : BucketKey → Bool) (entries : List UsageEntry) : BucketRow :=
  (entries.map fun entry => counted p entry.1 entry.2).sum

theorem amountOf_append (p : BucketKey → Bool) (es es' : List UsageEntry) :
    amountOf p (es ++ es') = amountOf p es + amountOf p es' := by
  rw [amountOf, List.map_append, List.sum_append]
  rfl

theorem amountOf_addEntries (p : BucketKey → Bool) (entries : List UsageEntry) (db : Database) :
    (db.addEntries entries).amountOf p = db.amountOf p + amountOf p entries :=
  Table.sumBy_foldl_accumulate (counted_add p) db.usageBuckets entries

/-- The days of a month, for one user and machine. -/
def dayOfMonth (userId machineId : String) (month : Int) (key : BucketKey) : Bool :=
  key.grain = .day && key.userId = userId && key.machineId = machineId &&
    bucketStart key.bucketStart .month = some month

/-- The minutes of a day. -/
def minuteOfDay (userId machineId : String) (day : Int) (key : BucketKey) : Bool :=
  key.grain = .minute && key.userId = userId && key.machineId = machineId &&
    bucketStart key.bucketStart .day = some day

/-- All days. -/
def dayOf (userId machineId : String) (key : BucketKey) : Bool :=
  key.grain = .day && key.userId = userId && key.machineId = machineId

/-- The amount of one bucket, which is zero if there is none. -/
def Database.bucketAmount (db : Database) (key : BucketKey) : BucketRow :=
  ((db.usageBuckets.get? key).getD 0).amount

theorem Database.bucketAmount_eq (db : Database) (key : BucketKey) :
    db.bucketAmount key = db.amountOf fun key' => key' = key := by
  rw [bucketAmount, ← Table.sumBy_eq_get? BucketRow.amount_zero]
  refine Table.sumBy_congr _ fun key' row _ => ?_
  unfold counted
  by_cases hkey : key' = key
  · rw [if_pos hkey, if_pos (decide_eq_true hkey)]
  · rw [if_neg hkey, if_neg fun hdec => hkey (of_decide_eq_true hdec)]

/-! ## The amounts of one delta -/

/-- The shares of a delta whose starts pass a test. -/
def sharesAmount (incomplete : Bool) (ups downs : List Share) (p : Option Int → Bool) : BucketRow :=
  ⟨shareTotal (ups.filter fun s => p s.start), shareTotal (downs.filter fun s => p s.start), false,
    incomplete && ups.any fun s => p s.start⟩

section Shares

variable {machineId : String} {now : Int} {delta : UsageDelta} {ups downs : List Share}

theorem sharesAmount_congr {incomplete : Bool} {p q : Option Int → Bool}
    (haligned : ups.map Share.start = downs.map Share.start)
    (h : ∀ s ∈ ups, p s.start = q s.start) :
    sharesAmount incomplete ups downs p = sharesAmount incomplete ups downs q := by
  have hdowns : ∀ s ∈ downs, p s.start = q s.start := by
    intro s hs
    obtain ⟨s', hs', hstart⟩ := List.mem_map.1 (haligned ▸ List.mem_map_of_mem hs)
    rw [← hstart]
    exact h s' hs'
  have hany : (ups.any fun s => p s.start) = ups.any fun s => q s.start := by
    rw [Bool.eq_iff_iff, List.any_eq_true, List.any_eq_true]
    exact exists_congr fun s => and_congr_right fun hs => by rw [h s hs]
  unfold sharesAmount
  rw [List.filter_congr h, List.filter_congr hdowns, hany]

theorem sharesAmount_false (incomplete : Bool) (ups downs : List Share) :
    sharesAmount incomplete ups downs (fun _ => false) = 0 := by
  have hany : (ups.any fun _ => false) = false := List.any_eq_false.2 fun _ _ => Bool.false_ne_true
  unfold sharesAmount
  rw [List.filter_false, List.filter_false, hany, Bool.and_false]
  rfl

/-- The shares of a coarser grain are those of the minutes, tested at the bucket they lie in. -/
theorem sharesAmount_rollup {grain : Grain} (hgrain : grain ≠ .minute) (incomplete : Bool)
    (ups downs : List Share) (p : Option Int → Bool) :
    sharesAmount incomplete (rollupMinutes ups grain) (rollupMinutes downs grain) p =
      sharesAmount incomplete ups downs fun start =>
        p (start.bind fun time => bucketStart time grain) := by
  have htotal : ∀ minutes : List Share,
      shareTotal ((rollupMinutes minutes grain).filter fun s => p s.start) =
        shareTotal (minutes.filter fun s => p (s.bucketOf grain)) := by
    intro minutes
    have hgroup : Grouping.sumWhere p
        (Grouping.group (fun m : Share => m.bucketOf grain) Share.bytes minutes) =
          ((minutes.filter fun m => p (m.bucketOf grain)).map Share.bytes).sum :=
      Grouping.sumWhere_group p minutes
    rw [rollupMinutes_eq hgrain, List.filter_map, shareTotal, List.map_map]
    exact hgroup
  have hany : ((rollupMinutes ups grain).any fun s => p s.start) =
      ups.any fun s => p (s.bucketOf grain) := by
    rw [rollupMinutes_eq hgrain, List.any_map, Bool.eq_iff_iff, List.any_eq_true, List.any_eq_true]
    constructor
    · intro hex
      obtain ⟨g, hg, hp⟩ := hex
      obtain ⟨m, hm, hkey⟩ := (Grouping.mem_keys_group (fun m : Share => m.bucketOf grain)
        Share.bytes).1 (List.mem_map_of_mem hg)
      exact ⟨m, hm, hkey ▸ hp⟩
    · intro hex
      obtain ⟨m, hm, hp⟩ := hex
      obtain ⟨g, hg, hkey⟩ := List.mem_map.1
        ((Grouping.mem_keys_group (fun m : Share => m.bucketOf grain) Share.bytes).2 ⟨m, hm, rfl⟩)
      exact ⟨g, hg, by rw [← hkey] at hp; exact hp⟩
  unfold sharesAmount
  rw [htotal ups, htotal downs, hany]
  rfl

/-- What the shares of one bucket amount to. -/
def pairAmount (incomplete : Bool) (p : Option Int → Bool) (bucket : Share × Share) : BucketRow :=
  if p bucket.1.start then ⟨bucket.1.bytes, bucket.2.bytes, false, incomplete⟩ else 0

theorem sharesAmount_eq {incomplete : Bool} {p : Option Int → Bool}
    (haligned : ups.map Share.start = downs.map Share.start) :
    sharesAmount incomplete ups downs p =
      ((ups.zip downs).map (pairAmount incomplete p)).sum := by
  induction ups generalizing downs with
  | nil =>
    obtain rfl : downs = [] := List.map_eq_nil_iff.1 haligned.symm
    exact BucketRow.ext_fields rfl rfl rfl (Bool.and_false _)
  | cons up ups ih =>
    cases downs with
    | nil => cases haligned
    | cons down downs =>
      rw [List.map_cons, List.map_cons, List.cons.injEq] at haligned
      obtain ⟨hhead, htail⟩ := haligned
      rw [List.zip_cons_cons, List.map_cons, List.sum_cons, ← ih htail, pairAmount]
      unfold sharesAmount
      simp only [List.filter_cons, List.any_cons, ← hhead]
      by_cases hp : p up.start = true
      · rw [if_pos hp, if_pos hp, if_pos hp, hp]
        refine BucketRow.ext_fields rfl rfl rfl ?_
        show (incomplete && (true || ups.any fun s => p s.start)) =
          (incomplete || (incomplete && ups.any fun s => p s.start))
        cases incomplete <;> rfl
      · rw [if_neg hp, if_neg hp, if_neg hp, zero_add, eq_false_of_ne_true hp, Bool.false_or]

/-- Whether a bucket that starts at a time is written. -/
def keptAt (now : Int) (grain : Grain) (start : Int) : Bool :=
  grain ≠ .minute || decide (minuteCutoff now ≤ start)

/-- What the entries of some buckets amount to. -/
theorem amountOf_entryOf {grain : Grain} {spread : Bool} (p : BucketKey → Bool)
    (buckets : List (Share × Share)) :
    amountOf p ((buckets.filter fun bucket => bucket.1.kept now grain).filterMap
        (entryOf machineId delta grain spread)) =
      (buckets.map (pairAmount delta.incomplete fun start =>
        start.any fun s => keptAt now grain s && p ⟨grain, s, delta.userId, machineId⟩)).sum := by
  induction buckets with
  | nil => rfl
  | cons bucket buckets ih =>
    rw [List.map_cons, List.sum_cons, ← ih, pairAmount]
    cases hstart : bucket.1.start with
    | none =>
      -- A bucket without a start has no entry and passes no test.
      have hentry : entryOf machineId delta grain spread bucket = none := by
        rw [entryOf, hstart, Option.map_none]
      rw [Option.any_none, if_neg Bool.false_ne_true, zero_add]
      by_cases hkept : bucket.1.kept now grain = true
      · rw [List.filter_cons_of_pos (p := fun b : Share × Share => b.1.kept now grain) hkept,
          List.filterMap_cons_none hentry]
      · rw [List.filter_cons_of_neg (p := fun b : Share × Share => b.1.kept now grain) hkept]
    | some s =>
      have hkeep : bucket.1.kept now grain = keptAt now grain s := by
        rw [Share.kept, keptAt, hstart, Option.any_some]
      have hentry : entryOf machineId delta grain spread bucket =
          some (⟨grain, s, delta.userId, machineId⟩, ⟨bucket.1.bytes, bucket.2.bytes,
            delta.estimated || spread, delta.incomplete⟩) := by
        rw [entryOf, hstart, Option.map_some]
      rw [Option.any_some]
      by_cases hkept : bucket.1.kept now grain = true
      · rw [List.filter_cons_of_pos (p := fun b : Share × Share => b.1.kept now grain) hkept,
          List.filterMap_cons_some hentry, ← hkeep, hkept, Bool.true_and]
        rfl
      · rw [List.filter_cons_of_neg (p := fun b : Share × Share => b.1.kept now grain) hkept,
          ← hkeep, eq_false_of_ne_true hkept, Bool.false_and, if_neg Bool.false_ne_true, zero_add]

/-- What the entries of aligned minutes amount to at one grain. -/
theorem amountOf_grainEntries (p : BucketKey → Bool) (grain : Grain)
    (haligned : ups.map Share.start = downs.map Share.start) :
    amountOf p (grainEntries machineId now delta ups downs grain) =
      sharesAmount delta.incomplete (rollupMinutes ups grain) (rollupMinutes downs grain)
        fun start =>
          start.any fun s => keptAt now grain s && p ⟨grain, s, delta.userId, machineId⟩ := by
  rw [sharesAmount_eq (map_start_rollupMinutes grain haligned)]
  exact amountOf_entryOf p _

end Shares

section Delta

variable {machineId : String} {now : Int} {delta : UsageDelta}

theorem checkDelta_eq_ok (h : checkDelta now delta = .ok ()) :
    0 ≤ delta.startUnixMs ∧ delta.startUnixMs < delta.endUnixMs ∧ 0 ≤ delta.uploadBytes ∧
      0 ≤ delta.downloadBytes := by
  simp only [checkDelta, bind_eq_ok, failIf_eq_ok, exists_const] at h
  omega

/-- The minutes of a delta that was checked: the same ones for the upload and the download. -/
theorem minutesOf_spec (h : checkDelta now delta = .ok ()) : ∃ starts,
    Split .minute delta.startUnixMs delta.endUnixMs delta.uploadBytes starts
      (minutesOf delta delta.uploadBytes) ∧
    Split .minute delta.startUnixMs delta.endUnixMs delta.downloadBytes starts
      (minutesOf delta delta.downloadBytes) := by
  obtain ⟨hstart, hlt, hup, hdown⟩ := checkDelta_eq_ok h
  obtain ⟨starts, hsplit⟩ := splitBytes_spec hstart hlt .minute nofun
  have hshares : ∀ bytes, 0 ≤ bytes → Split .minute delta.startUnixMs delta.endUnixMs bytes starts
      (minutesOf delta bytes) := by
    intro bytes hbytes
    obtain ⟨shares, hshares, hspec⟩ := hsplit bytes hbytes
    rwa [minutesOf, hshares, Option.getD_some]
  exact ⟨starts, hshares _ hup, hshares _ hdown⟩

/-- The minutes of a delta that was accepted are dates: they have a day and a month. -/
theorem minutesOf_dated (h : checkDelta now delta = .ok ()) (hmonthly : Monthly delta) :
    ∀ m ∈ minutesOf delta delta.uploadBytes,
      ∃ t, m.start = some t ∧ dateStart ≤ t ∧ t ≤ lastDate := by
  intro m hm
  obtain ⟨starts, hups, hdowns⟩ := minutesOf_spec h
  obtain ⟨t, ht, hlow, -⟩ := hups.minutes_within (checkDelta_eq_ok h).1 m hm
  refine ⟨t, ht, hlow, ?_⟩
  by_contra hlate
  -- The month of the minute is a bucket of the rollup, which has a start.
  obtain ⟨g, hg, hkey⟩ := List.mem_map.1
    ((Grouping.mem_keys_group (fun m : Share => m.bucketOf .month) Share.bytes).2 ⟨m, hm, rfl⟩)
  have hmem : (⟨g.1, g.2⟩ : Share) ∈
      rollupMinutes (minutesOf delta delta.uploadBytes) .month := List.mem_map_of_mem hg
  have haligned := map_start_rollupMinutes .month (hups.starts.trans hdowns.starts.symm)
  have hlength : (rollupMinutes (minutesOf delta delta.uploadBytes) .month).length ≤
      (rollupMinutes (minutesOf delta delta.downloadBytes) .month).length := by
    rw [← List.length_map Share.start, haligned, List.length_map]
  rw [← List.map_fst_zip hlength] at hmem
  obtain ⟨bucket, hbucket, heq⟩ := List.mem_map.1 hmem
  have hsome := hmonthly bucket hbucket
  have hnone : bucket.1.start = none := by
    rw [heq]
    show g.1 = none
    rw [hkey, Share.bucketOf, ht, Option.bind_some]
    exact (monthStart_late (by unfold dateEnd; unfold lastDate at hlate; omega)).trans
      (if_neg hlate)
  rw [hnone] at hsome
  cases hsome

/-- Whether the bucket a minute is counted in is written and passes a test. -/
def counts (machineId : String) (now : Int) (delta : UsageDelta) (p : BucketKey → Bool)
    (grain : Grain) (start : Option Int) : Bool :=
  (start.bind (bucketStart · grain)).any fun s =>
    keptAt now grain s && p ⟨grain, s, delta.userId, machineId⟩

/-- The minutes whose buckets of a grain pass a test. -/
def minutesAmount (machineId : String) (now : Int) (delta : UsageDelta) (p : BucketKey → Bool)
    (grain : Grain) : BucketRow :=
  sharesAmount delta.incomplete (minutesOf delta delta.uploadBytes)
    (minutesOf delta delta.downloadBytes) (counts machineId now delta p grain)

/-- The entries of a delta at one grain amount to the minutes in the buckets that pass. -/
theorem amountOf_deltaEntries (h : checkDelta now delta = .ok ()) (p : BucketKey → Bool)
    (grain : Grain) :
    amountOf p (deltaEntries machineId now delta grain) =
      minutesAmount machineId now delta p grain := by
  obtain ⟨starts, hups, hdowns⟩ := minutesOf_spec h
  have haligned := hups.starts.trans hdowns.starts.symm
  rw [deltaEntries, amountOf_grainEntries p grain haligned]
  by_cases hgrain : grain = .minute
  · subst hgrain
    refine sharesAmount_congr haligned fun m hm => ?_
    obtain ⟨first, -, hcovers⟩ := hups.covers
    obtain ⟨b, hb, hstart⟩ := List.mem_map.1 (hups.starts ▸ List.mem_map_of_mem hm)
    obtain ⟨n, hbucket, -⟩ := hcovers.touched hb
    rw [counts, ← hstart, Option.bind_some, hbucket.start_self]
  · rw [sharesAmount_rollup hgrain]
    rfl

/-- A test that only one grain passes. -/
theorem amountOf_delta (h : checkDelta now delta = .ok ()) {p : BucketKey → Bool} {grain : Grain}
    (hp : ∀ key, p key = true → key.grain = grain) :
    amountOf p (grains.flatMap (deltaEntries machineId now delta)) =
      minutesAmount machineId now delta p grain := by
  have hother : ∀ grain', grain' ≠ grain → minutesAmount machineId now delta p grain' = 0 := by
    intro grain' hne
    have hfalse : counts machineId now delta p grain' = fun _ => false := by
      funext start
      have hkey : ∀ s, p ⟨grain', s, delta.userId, machineId⟩ = false := fun s =>
        eq_false_of_ne_true fun hpass => hne (hp _ hpass)
      unfold counts
      simp only [hkey, Bool.and_false]
      cases start.bind (bucketStart · grain') with
      | none => rfl
      | some s => rfl
    rw [minutesAmount, hfalse, sharesAmount_false]
  simp only [grains, List.flatMap_cons, List.flatMap_nil, List.append_nil, amountOf_append,
    amountOf_deltaEntries h p]
  cases grain with
  | minute => rw [hother .day (by decide), hother .month (by decide), add_zero, add_zero]
  | day => rw [hother .minute (by decide), hother .month (by decide), add_zero, zero_add]
  | month => rw [hother .minute (by decide), hother .day (by decide), zero_add, zero_add]

/-- Tests that the minutes of a delta pass at the same time. -/
theorem amountOf_delta_congr (h : checkDelta now delta = .ok ()) {p q : BucketKey → Bool}
    (grain grain' : Grain) (hp : ∀ key, p key = true → key.grain = grain)
    (hq : ∀ key, q key = true → key.grain = grain')
    (hsame : ∀ m ∈ minutesOf delta delta.uploadBytes,
      counts machineId now delta p grain m.start = counts machineId now delta q grain' m.start) :
    amountOf p (grains.flatMap (deltaEntries machineId now delta)) =
      amountOf q (grains.flatMap (deltaEntries machineId now delta)) := by
  obtain ⟨starts, hups, hdowns⟩ := minutesOf_spec h
  rw [amountOf_delta h hp, amountOf_delta h hq]
  exact sharesAmount_congr (hups.starts.trans hdowns.starts.symm) hsame

/-- **The month of a delta is the sum of its days.** -/
theorem amountOf_month (h : checkDelta now delta = .ok ()) (hmonthly : Monthly delta)
    (userId machine : String) (month : Int) :
    amountOf (fun key => key = ⟨.month, month, userId, machine⟩)
        (grains.flatMap (deltaEntries machineId now delta)) =
      amountOf (dayOfMonth userId machine month)
        (grains.flatMap (deltaEntries machineId now delta)) := by
  refine amountOf_delta_congr h .month .day (fun key hkey => ?_)
    (fun key hkey => ?_) fun m hm => ?_
  · rw [of_decide_eq_true hkey]
  · simp only [dayOfMonth, Bool.and_eq_true, decide_eq_true_eq] at hkey
    exact hkey.1.1.1
  · obtain ⟨t, ht, hlow, hhigh⟩ := minutesOf_dated h hmonthly m hm
    have hday : bucketStart t .day = some (sizedStart dayMilliseconds t) := rfl
    have hcoarse := bucketStart_day hlow hhigh
    rw [ht, counts, counts, Option.bind_some, Option.bind_some, hday, Option.any_some]
    simp only [dayOfMonth, hcoarse, keptAt]
    cases bucketStart t .month with
    | none => simp
    | some s => simp [Bool.and_comm]

/-- **The day of a delta is the sum of its minutes**, if no minute of it is too old. -/
theorem amountOf_day (h : checkDelta now delta = .ok ()) (userId machine : String) {day : Int}
    (hrecent : minuteCutoff now ≤ day) :
    amountOf (fun key => key = ⟨.day, day, userId, machine⟩)
        (grains.flatMap (deltaEntries machineId now delta)) =
      amountOf (minuteOfDay userId machine day)
        (grains.flatMap (deltaEntries machineId now delta)) := by
  refine amountOf_delta_congr h .day .minute (fun key hkey => ?_)
    (fun key hkey => ?_) fun m hm => ?_
  · rw [of_decide_eq_true hkey]
  · simp only [minuteOfDay, Bool.and_eq_true, decide_eq_true_eq] at hkey
    exact hkey.1.1.1
  · obtain ⟨starts, hups, -⟩ := minutesOf_spec h
    obtain ⟨first, -, hcovers⟩ := hups.covers
    obtain ⟨t, hb, hstart⟩ := List.mem_map.1 (hups.starts ▸ List.mem_map_of_mem hm)
    obtain ⟨n, hbucket, -⟩ := hcovers.touched hb
    have hday : bucketStart t .day = some (sizedStart dayMilliseconds t) := rfl
    rw [← hstart, counts, counts, Option.bind_some, Option.bind_some, hbucket.start_self, hday,
      Option.any_some, Option.any_some]
    simp only [minuteOfDay, keptAt, hday]
    by_cases hin : sizedStart dayMilliseconds t = day
    · have hkept : minuteCutoff now ≤ t := by
        unfold sizedStart dayMilliseconds at hin
        omega
      simp [hin, hkept]
    · simp [hin]

variable (machineId) in
/-- The days of a delta add up to its bytes. -/
theorem amountOf_days (h : checkDelta now delta = .ok ()) (userId machine : String) :
    let days := amountOf (dayOf userId machine) (grains.flatMap (deltaEntries machineId now delta))
    let mine := delta.userId = userId ∧ machineId = machine
    days.uploadBytes = (if mine then delta.uploadBytes else 0) ∧
      days.downloadBytes = if mine then delta.downloadBytes else 0 := by
  obtain ⟨starts, hups, hdowns⟩ := minutesOf_spec h
  intro days mine
  have hdays : days = minutesAmount machineId now delta (dayOf userId machine) .day :=
    amountOf_delta h fun key hkey => by
      simp only [dayOf, Bool.and_eq_true, decide_eq_true_eq] at hkey
      exact hkey.1.1
  have hcounts : ∀ bytes shares, Split .minute delta.startUnixMs delta.endUnixMs bytes starts shares →
      ∀ m ∈ shares, counts machineId now delta (dayOf userId machine) .day m.start =
        decide mine := by
    intro bytes shares hspec m hm
    obtain ⟨t, ht, -⟩ := hspec.minutes_within (checkDelta_eq_ok h).1 m hm
    have hday : bucketStart t .day = some (sizedStart dayMilliseconds t) := rfl
    rw [ht, counts, Option.bind_some, hday, Option.any_some]
    simp [keptAt, dayOf, mine]
  rw [hdays]
  unfold minutesAmount sharesAmount
  rw [List.filter_congr (hcounts _ _ hups), List.filter_congr (hcounts _ _ hdowns)]
  by_cases hmine : mine
  · rw [if_pos hmine, if_pos hmine, decide_eq_true hmine, List.filter_true, List.filter_true]
    exact ⟨hups.total, hdowns.total⟩
  · rw [if_neg hmine, if_neg hmine, decide_eq_false hmine, List.filter_false, List.filter_false]
    exact ⟨rfl, rfl⟩

/-- The key of a stored bucket: the start of a bucket of its grain. -/
def AlignedKey (key : BucketKey) : Prop :=
  bucketStart key.bucketStart key.grain = some key.bucketStart ∧ dateStart ≤ key.bucketStart

/-- The entries of a delta are for buckets of its user and of the machine. -/
theorem deltaEntries_aligned (h : checkDelta now delta = .ok ()) {grain : Grain}
    {entry : UsageEntry} (hentry : entry ∈ deltaEntries machineId now delta grain) :
    AlignedKey entry.1 := by
  obtain ⟨starts, hups, hdowns⟩ := minutesOf_spec h
  rw [deltaEntries, grainEntries, List.mem_filterMap] at hentry
  obtain ⟨bucket, hbucket, hentry⟩ := hentry
  obtain ⟨s, hs, rfl⟩ := Option.map_eq_some_iff.1 hentry
  have hmem := (List.of_mem_zip (List.mem_filter.1 hbucket).1).1
  -- The bucket is the one of a minute.
  have hminute : ∃ t, dateStart ≤ t ∧ bucketStart t grain = some s := by
    by_cases hgrain : grain = .minute
    · subst hgrain
      obtain ⟨first, -, hcovers⟩ := hups.covers
      obtain ⟨t, ht, hstart⟩ := List.mem_map.1 (hups.starts ▸ List.mem_map_of_mem hmem)
      obtain ⟨n, hb, -⟩ := hcovers.touched ht
      obtain ⟨t', ht', hlow, -⟩ := hups.minutes_within (checkDelta_eq_ok h).1 _ hmem
      obtain rfl := Option.some.inj (hs.symm.trans ht')
      obtain rfl := Option.some.inj (hs.symm.trans hstart.symm)
      exact ⟨s, hlow, hb.start_self⟩
    · rw [rollupMinutes_eq hgrain] at hmem
      obtain ⟨g, hg, heq⟩ := List.mem_map.1 hmem
      obtain ⟨m, hm, hkey⟩ := (Grouping.mem_keys_group _ _).1 (List.mem_map_of_mem hg)
      obtain ⟨t, ht, hlow, -⟩ := hups.minutes_within (checkDelta_eq_ok h).1 m hm
      refine ⟨t, hlow, ?_⟩
      rw [← heq] at hs
      rw [← hs]
      show _ = g.1
      rw [← hkey, Share.bucketOf, ht, Option.bind_some]
  obtain ⟨t, hlow, hstart⟩ := hminute
  obtain ⟨hself, hs', -⟩ := bucketStart_aligned hlow hstart
  exact ⟨hself, hs'⟩

end Delta

/-! ## The amounts of a batch -/

section Batch

variable {machineId : String} {now : Int} {batch : UsageBatch}

theorem amountOf_batchEntries (p : BucketKey → Bool) :
    amountOf p (batchEntries machineId now batch) = (batch.deltas.map fun d =>
      amountOf p (grains.flatMap (deltaEntries machineId now d))).sum := by
  unfold batchEntries
  induction batch.deltas with
  | nil => rfl
  | cons d ds ih => rw [List.flatMap_cons, amountOf_append, ih, List.map_cons, List.sum_cons]

/-- Tests that agree on every delta agree on the batch. -/
theorem amountOf_batch_congr {p q : BucketKey → Bool}
    (h : ∀ d ∈ batch.deltas, amountOf p (grains.flatMap (deltaEntries machineId now d)) =
      amountOf q (grains.flatMap (deltaEntries machineId now d))) :
    amountOf p (batchEntries machineId now batch) =
      amountOf q (batchEntries machineId now batch) := by
  rw [amountOf_batchEntries, amountOf_batchEntries, List.map_congr_left h]

/-- The bytes some deltas carry for a user. -/
def bytesFor (bytes : UsageDelta → Int) (userId : String) (deltas : List UsageDelta) : Int :=
  ((deltas.filter fun d => d.userId = userId).map bytes).sum

theorem bytesFor_cons (bytes : UsageDelta → Int) (userId : String) (d : UsageDelta)
    (ds : List UsageDelta) : bytesFor bytes userId (d :: ds) =
      (if d.userId = userId then bytes d else 0) + bytesFor bytes userId ds := by
  unfold bytesFor
  by_cases hd : d.userId = userId
  · simp only [List.filter_cons, hd, decide_true, if_true, List.map_cons, List.sum_cons]
  · simp only [List.filter_cons, hd, decide_false, Bool.false_eq_true, if_false, zero_add]

theorem bytesFor_append (bytes : UsageDelta → Int) (userId : String) (ds ds' : List UsageDelta) :
    bytesFor bytes userId (ds ++ ds') = bytesFor bytes userId ds + bytesFor bytes userId ds' := by
  rw [bytesFor, List.filter_append, List.map_append, List.sum_append]
  rfl

variable (machineId) in
/-- The days of a batch add up to its bytes. -/
theorem amountOf_batch_days (h : ∀ d ∈ batch.deltas, checkDelta now d = .ok ())
    (userId machine : String) :
    (amountOf (dayOf userId machine) (batchEntries machineId now batch)).uploadBytes =
        (if machineId = machine then bytesFor (·.uploadBytes) userId batch.deltas else 0) ∧
      (amountOf (dayOf userId machine) (batchEntries machineId now batch)).downloadBytes =
        if machineId = machine then bytesFor (·.downloadBytes) userId batch.deltas else 0 := by
  rw [amountOf_batchEntries]
  revert h
  induction batch.deltas with
  | nil =>
    intro _
    simp [bytesFor]
  | cons d ds ih =>
    intro h
    obtain ⟨hup, hdown⟩ := ih fun d' hd' => h d' (List.mem_cons_of_mem _ hd')
    obtain ⟨hup', hdown'⟩ := amountOf_days machineId (h d List.mem_cons_self) userId machine
    rw [List.map_cons, List.sum_cons, BucketRow.add_uploadBytes, BucketRow.add_downloadBytes, hup,
      hdown, hup', hdown', bytesFor_cons, bytesFor_cons]
    by_cases hmachine : machineId = machine
    · simp only [hmachine, and_true, if_true, and_self]
    · simp only [hmachine, and_false, if_false, add_zero, and_self]

end Batch

/-! ## Runs -/

/-- A batch that was committed under a sequence of a stream. -/
structure Applied where
  stream : UsageStreamKey
  sequence : Int
  batch : UsageBatch

/-- The database, and what happened to its usage tables. -/
structure Ledger where
  db : Database
  applied : List Applied
  /-- The clocks of the reports and cleanups. -/
  clocks : List Int

/-- Calls at any clock. -/
inductive UsageCall where
  | report (vault : Vault) (fresh : String → String) (id : String) (row : MachineRow)
      (request : ReportUsageRequest) (now : Int)
  | clean (now : Int)
  /-- Anything else may change the other tables. -/
  | other (db : Database)

/-- The stream of a request. -/
def streamOf (id : String) (row : MachineRow) (request : ReportUsageRequest) : UsageStreamKey :=
  ⟨id, row.installationId.getD "", request.streamId⟩

/-- One call. A report that throws is rolled back. -/
def Ledger.step (codec : Codec) (ledger : Ledger) : UsageCall → Ledger
  | .report vault fresh id row request now =>
    match reportUsage vault fresh codec id row request now ledger.db with
    | .error _ => { ledger with clocks := now :: ledger.clocks }
    | .ok (_, db) =>
      { db, clocks := now :: ledger.clocks
        applied :=
          if request.sequence = committedOf (streamOf id row request) ledger.db + 1 then
            ledger.applied ++ ((codec.usageBatchFromBinary request.payload).map fun batch =>
              ⟨streamOf id row request, request.sequence, batch⟩).toList
          else ledger.applied }
  | .clean now => { ledger with db := cleanMinutes now ledger.db, clocks := now :: ledger.clocks }
  | .other db =>
    { ledger with db := { db with
        usageBuckets := ledger.db.usageBuckets, usageStreams := ledger.db.usageStreams } }

/-- A run from a database without usage. -/
def Ledger.run (codec : Codec) (calls : List UsageCall) : Ledger :=
  calls.foldl (Ledger.step codec) ⟨.empty, [], []⟩

/-- The bytes of the applied batches of a machine for a user. -/
def appliedBytes (bytes : UsageDelta → Int) (userId machineId : String) (applied : List Applied) :
    Int :=
  bytesFor bytes userId
    ((applied.filter fun a => a.stream.machineId = machineId).flatMap (·.batch.deltas))

/-- The sequences of a stream that were applied. -/
def appliedSequences (stream : UsageStreamKey) (applied : List Applied) : List Int :=
  (applied.filter fun a => a.stream = stream).map (·.sequence)

/-- What the usage tables add up to. -/
structure Agrees (ledger : Ledger) : Prop where
  /-- Every month is the sum of its days. -/
  months : ∀ userId machineId month, ledger.db.bucketAmount ⟨.month, month, userId, machineId⟩ =
    ledger.db.amountOf (dayOfMonth userId machineId month)
  /-- Every day that no cut-off has passed is the sum of its minutes. -/
  days : ∀ userId machineId day, (∀ clock ∈ ledger.clocks, minuteCutoff clock ≤ day) →
    ledger.db.bucketAmount ⟨.day, day, userId, machineId⟩ =
      ledger.db.amountOf (minuteOfDay userId machineId day)
  /-- The days add up to what was applied. -/
  total : ∀ userId machineId,
    (ledger.db.amountOf (dayOf userId machineId)).uploadBytes =
        appliedBytes (·.uploadBytes) userId machineId ledger.applied ∧
      (ledger.db.amountOf (dayOf userId machineId)).downloadBytes =
        appliedBytes (·.downloadBytes) userId machineId ledger.applied
  /-- Every sequence was applied once. -/
  sequences : ∀ stream, 0 ≤ committedOf stream ledger.db ∧
    appliedSequences stream ledger.applied =
      (List.range (committedOf stream ledger.db).toNat).map fun i : ℕ => (i : Int) + 1
  /-- Buckets start where buckets of their grain start. -/
  aligned : ∀ key ∈ ledger.db.usageBuckets.rows.map Prod.fst, AlignedKey key

/-! ## Steps -/

section Steps

variable {codec : Codec} {ledger : Ledger}

variable (codec ledger) in
/-- **What a report does to the ledger.** It leaves the database as it is, or it commits the next
batch of its stream. -/
theorem step_report (vault : Vault) (fresh : String → String) (id : String) (row : MachineRow)
    (request : ReportUsageRequest) (now : Int) :
    ledger.step codec (.report vault fresh id row request now) =
        { ledger with clocks := now :: ledger.clocks } ∨
      (∃ answer, reportUsage vault fresh codec id row request now ledger.db = .ok answer) ∧
      request.sequence = committedOf (streamOf id row request) ledger.db + 1 ∧
      ∃ db batch, Committed vault fresh codec (streamOf id row request) request now batch
          ledger.db db ∧
        ledger.step codec (.report vault fresh id row request now) =
          ⟨db, ledger.applied ++ [⟨streamOf id row request, request.sequence, batch⟩],
            now :: ledger.clocks⟩ := by
  cases hreport : reportUsage vault fresh codec id row request now ledger.db with
  | error e =>
    left
    simp only [Ledger.step, hreport]
  | ok answer =>
    obtain ⟨response, db⟩ := answer
    obtain ⟨identity, hidentity, -, hcases⟩ := reportUsage_eq_ok hreport
    have hkey : streamOf id row request = ⟨id, identity.installationId, request.streamId⟩ := by
      rw [streamOf, (assertInstallation_eq_ok hidentity).1, Option.getD_some]
    simp only [Ledger.step, hreport]
    rw [← hkey] at hcases
    rcases hcases with ⟨rfl, -, hne, -⟩ | ⟨-, batch, hcommitted⟩
    · left
      rw [if_neg hne]
    · refine .inr ⟨⟨_, rfl⟩, hcommitted.next, db, batch, hcommitted, ?_⟩
      rw [if_pos hcommitted.next, hcommitted.decoded]
      rfl

/-- Another clock, or another cut-off, asks less of the days. -/
theorem Agrees.tick (h : Agrees ledger) (now : Int) :
    Agrees { ledger with clocks := now :: ledger.clocks } :=
  ⟨h.months, fun userId machineId day hclocks => h.days userId machineId day fun clock hclock =>
    hclocks clock (List.mem_cons_of_mem _ hclock), h.total, h.sequences, h.aligned⟩

theorem Committed.amountOf {vault : Vault} {fresh : String → String} {key : UsageStreamKey}
    {request : ReportUsageRequest} {now : Int} {batch : UsageBatch} {db db' : Database}
    (h : Committed vault fresh codec key request now batch db db') (p : BucketKey → Bool) :
    db'.amountOf p = db.amountOf p +
      Panel.amountOf p (batchEntries key.machineId now batch) := by
  rw [← amountOf_addEntries]
  unfold Database.amountOf
  rw [h.buckets]
  rfl

/-- The commit of a batch keeps the sums. -/
theorem Agrees.commit {vault : Vault} {fresh : String → String} {stream : UsageStreamKey}
    {request : ReportUsageRequest} {now : Int} {batch : UsageBatch} {db : Database}
    (h : Agrees ledger)
    (hcommitted : Committed vault fresh codec stream request now batch ledger.db db) :
    Agrees ⟨db, ledger.applied ++ [⟨stream, request.sequence, batch⟩], now :: ledger.clocks⟩ := by
  have hcheck : ∀ d ∈ batch.deltas, checkDelta now d = .ok () := fun d hd =>
    (hcommitted.deltas d hd).2.1
  refine ⟨fun userId machineId month => ?_, fun userId machineId day hclocks => ?_,
    fun userId machineId => ?_, fun stream' => ?_, fun key hkey => ?_⟩
  · have hmonths := h.months userId machineId month
    rw [Database.bucketAmount_eq] at hmonths ⊢
    rw [hcommitted.amountOf, hcommitted.amountOf, hmonths]
    congr 1
    exact amountOf_batch_congr fun d hd =>
      amountOf_month (hcheck d hd) (hcommitted.deltas d hd).2.2 userId machineId month
  · have hdays := h.days userId machineId day fun clock hclock =>
      hclocks clock (List.mem_cons_of_mem _ hclock)
    rw [Database.bucketAmount_eq] at hdays ⊢
    rw [hcommitted.amountOf, hcommitted.amountOf, hdays]
    congr 1
    exact amountOf_batch_congr fun d hd =>
      amountOf_day (hcheck d hd) userId machineId (hclocks now List.mem_cons_self)
  · obtain ⟨hup, hdown⟩ := h.total userId machineId
    obtain ⟨hup', hdown'⟩ := amountOf_batch_days stream.machineId hcheck userId machineId
    have hbytes : ∀ bytes : UsageDelta → Int,
        appliedBytes bytes userId machineId
            (ledger.applied ++ [⟨stream, request.sequence, batch⟩]) =
          appliedBytes bytes userId machineId ledger.applied +
            if stream.machineId = machineId then bytesFor bytes userId batch.deltas else 0 := by
      intro bytes
      unfold appliedBytes
      rw [List.filter_append, List.flatMap_append, bytesFor_append]
      congr 1
      by_cases hmachine : stream.machineId = machineId
      · rw [if_pos hmachine]
        simp [hmachine]
      · rw [if_neg hmachine]
        simp [hmachine, bytesFor]
    rw [hcommitted.amountOf, BucketRow.add_uploadBytes, BucketRow.add_downloadBytes, hup, hdown,
      hup', hdown', hbytes, hbytes]
    exact ⟨rfl, rfl⟩
  · obtain ⟨hnonneg, hsequences⟩ := h.sequences stream'
    have happlied : appliedSequences stream'
          (ledger.applied ++ [⟨stream, request.sequence, batch⟩]) =
        appliedSequences stream' ledger.applied ++
          if stream = stream' then [request.sequence] else [] := by
      unfold appliedSequences
      rw [List.filter_append, List.map_append]
      congr 1
      by_cases hsame : stream = stream'
      · rw [if_pos hsame]
        simp [hsame]
      · rw [if_neg hsame]
        simp [hsame]
    have hcursor : committedOf stream' db =
        if stream' = stream then request.sequence else committedOf stream' ledger.db := by
      unfold committedOf
      rw [hcommitted.streams, Table.get?_set]
      by_cases hsame : stream' = stream
      · rw [if_pos hsame, if_pos hsame]
        rfl
      · rw [if_neg hsame, if_neg hsame]
    rw [happlied]
    by_cases hsame : stream' = stream
    · subst hsame
      have hnext := hcommitted.next
      rw [if_pos rfl, hcursor, if_pos rfl, hsequences]
      refine ⟨by omega, ?_⟩
      rw [hnext, show (committedOf stream' ledger.db + 1).toNat =
        (committedOf stream' ledger.db).toNat + 1 from by omega, List.range_succ, List.map_append,
        List.map_singleton, Int.toNat_of_nonneg hnonneg]
    · rw [if_neg (Ne.symm hsame), hcursor, if_neg hsame, List.append_nil]
      exact ⟨hnonneg, hsequences⟩
  · show AlignedKey key
    rw [hcommitted.buckets] at hkey
    rcases Table.mem_keys_foldl_accumulate hkey with hkey | hkey
    · exact h.aligned key hkey
    · obtain ⟨entry, hentry, rfl⟩ := List.mem_map.1 hkey
      obtain ⟨d, hd, hentry⟩ := List.mem_flatMap.1 hentry
      obtain ⟨grain, -, hentry⟩ := List.mem_flatMap.1 hentry
      exact deltaEntries_aligned (hcheck d hd) hentry

/-- The minutes that are deleted are old. -/
theorem expiredMinutes_old {now : Int} {db : Database} {key : BucketKey}
    (h : key ∈ expiredMinutes now db) : key.grain = .minute ∧ key.bucketStart < minuteCutoff now := by
  have hmem := List.mem_of_mem_take h
  rw [List.mem_insertionSort, List.mem_filter, Bool.and_eq_true] at hmem
  exact ⟨of_decide_eq_true hmem.2.1, of_decide_eq_true hmem.2.2⟩

/-- A cleanup changes no sum that leaves out the old minutes. -/
theorem amountOf_cleanMinutes {now : Int} {db : Database} {p : BucketKey → Bool}
    (hp : ∀ key, p key = true → key.grain = .minute → minuteCutoff now ≤ key.bucketStart) :
    (cleanMinutes now db).amountOf p = db.amountOf p := by
  refine Table.sumBy_deleteWhere_of_zero _ fun key row _ hold => ?_
  obtain ⟨hminute, hbefore⟩ := expiredMinutes_old (of_decide_eq_true hold)
  exact if_neg fun hpass => by
    have hkept := hp key hpass hminute
    omega

/-- A cleanup keeps the sums. -/
theorem Agrees.clean (h : Agrees ledger) (now : Int) :
    Agrees { ledger with db := cleanMinutes now ledger.db, clocks := now :: ledger.clocks } := by
  refine ⟨fun userId machineId month => ?_, fun userId machineId day hclocks => ?_,
    fun userId machineId => ?_, h.sequences, fun key hkey => ?_⟩
  · have hmonths := h.months userId machineId month
    rw [Database.bucketAmount_eq] at hmonths ⊢
    rw [amountOf_cleanMinutes fun key hkey hminute => ?_,
      amountOf_cleanMinutes fun key hkey hminute => ?_]
    · exact hmonths
    · simp only [dayOfMonth, hminute, reduceCtorEq, decide_false, Bool.false_and,
        Bool.false_eq_true] at hkey
    · rw [of_decide_eq_true hkey] at hminute
      exact nomatch hminute
  · have hdays := h.days userId machineId day fun clock hclock =>
      hclocks clock (List.mem_cons_of_mem _ hclock)
    have hcut := hclocks now List.mem_cons_self
    rw [Database.bucketAmount_eq] at hdays ⊢
    rw [amountOf_cleanMinutes fun key hkey hminute => ?_,
      amountOf_cleanMinutes fun key hkey hminute => ?_]
    · exact hdays
    · -- A minute is not before the start of its day.
      simp only [minuteOfDay, Bool.and_eq_true, decide_eq_true_eq] at hkey
      have hstart : sizedStart dayMilliseconds key.bucketStart = day := Option.some.inj hkey.2
      unfold sizedStart dayMilliseconds at hstart
      omega
    · rw [of_decide_eq_true hkey] at hminute
      exact nomatch hminute
  · have hdays : (cleanMinutes now ledger.db).amountOf (dayOf userId machineId) =
        ledger.db.amountOf (dayOf userId machineId) :=
      amountOf_cleanMinutes fun key hkey hminute => by
        simp only [dayOf, hminute, reduceCtorEq, decide_false, Bool.false_and,
          Bool.false_eq_true] at hkey
    show ((cleanMinutes now ledger.db).amountOf (dayOf userId machineId)).uploadBytes = _ ∧ _
    rw [hdays]
    exact h.total userId machineId
  · obtain ⟨entry, hentry, rfl⟩ := List.mem_map.1 hkey
    exact h.aligned _ (List.mem_map_of_mem (List.mem_filter.1 hentry).1)

theorem Agrees.step (h : Agrees ledger) (call : UsageCall) : Agrees (ledger.step codec call) := by
  cases call with
  | report vault fresh id row request now =>
    rcases step_report codec ledger vault fresh id row request now with
      heq | ⟨-, -, db, batch, hcommitted, heq⟩
    · rw [heq]
      exact h.tick now
    · rw [heq]
      exact h.commit hcommitted
  | clean now => exact h.clean now
  | other db => exact ⟨h.months, h.days, h.total, h.sequences, h.aligned⟩

end Steps

theorem agrees_empty : Agrees ⟨.empty, [], []⟩ := by
  refine ⟨fun _ _ _ => rfl, fun _ _ _ _ => rfl, fun _ _ => ⟨rfl, rfl⟩, fun _ => ⟨le_rfl, rfl⟩, ?_⟩
  intro key hkey
  cases hkey

theorem agrees_run (codec : Codec) (calls : List UsageCall) : Agrees (Ledger.run codec calls) := by
  suffices ∀ ledger, Agrees ledger → Agrees (calls.foldl (Ledger.step codec) ledger) from
    this _ agrees_empty
  induction calls with
  | nil => exact fun ledger h => h
  | cons call calls ih => exact fun ledger h => ih _ (h.step call)

/-- **The usage projections agree**, whatever was reported and cleaned at whatever clock: every
month is the sum of its days, every day that was never older than the cut-off is the sum of its
minutes, and the days add up to the deltas of the applied batches, each sequence of a stream
being applied once. A report that is refused, repeated or out of sequence changes nothing. -/
theorem projections_agree (codec : Codec) (calls : List UsageCall) :
    let ledger := Ledger.run codec calls
    Agrees ledger ∧
      ∀ vault fresh id row request now,
        ((∃ e, reportUsage vault fresh codec id row request now ledger.db = .error e) ∨
          request.sequence ≠ committedOf (streamOf id row request) ledger.db + 1) →
        (ledger.step codec (.report vault fresh id row request now)).db = ledger.db := by
  refine ⟨agrees_run codec calls, fun vault fresh id row request now hrefused => ?_⟩
  rcases step_report codec (Ledger.run codec calls) vault fresh id row request now with
    heq | ⟨⟨answer, hok⟩, hnext, -⟩
  · rw [heq]
  · rcases hrefused with ⟨e, herror⟩ | hne
    · exact nomatch hok.symm.trans herror
    · exact absurd hnext hne

/-- A codec whose only message is a batch that crosses the end of 2023 in Shanghai. -/
def newYearCodec : Codec where
  taskSpecToBinary _ := []
  taskSpecFromBinary _ := none
  reportTaskToBinary _ := []
  usageBatchFromBinary _ := some ⟨[⟨"u", 1704038370000, 1704038430000, 7, 1, false, true⟩], "core"⟩
  diagnosticText _ := none

/-- One report of a machine that knows the user. -/
def newYearCalls : List UsageCall :=
  [.other { Database.empty with machineUserHistory := Table.empty.set ("m", "u") () },
    .report ⟨fun _ => none⟩ id "m"
      { tokenHash := "", installationId := some "installation-0001", bindingEpoch := 1
        createdAt := 0 }
      ⟨some ⟨"installation-0001", 1⟩, "stream-000000001", 1, [],
        "e3b0c44298fc1c149afbf4c8996fb92427ae41e4649b934ca495991b7852b855"⟩ 1704038430000]

-- Two minutes, two days and two months, of 4 and 3, and of 1 and 0 bytes.
example : (Ledger.run newYearCodec newYearCalls).db.usageBuckets.rows.map
    (fun row => (row.1.bucketStart, row.2.uploadBytes, row.2.downloadBytes)) =
    [(1704038340000, 4, 1), (1704038400000, 3, 0), (1703952000000, 4, 1), (1704038400000, 3, 0),
      (1701360000000, 4, 1), (1704038400000, 3, 0)] := by decide +kernel

end Bifurcation.Panel
