import Bifurcation.Panel.Policy
import Bifurcation.Panel.Attribution

/-!
# Usage accounting

`UsageStore.reportUsage` and `cleanMinutes` of `usage/store.ts`. A batch is accepted in sequence:
a repeated sequence is answered without a change, a later one is told what is missing, and the
next one is checked, attributed to buckets of all three grains and committed together with the
refreshed policy and the stream's cursor.

**Buckets.** The amounts of a bucket form a commutative monoid: bytes are added, flags are joined.
A batch that is committed adds a list of entries to the table, which depends on the batch, the
machine and the clock only.

Main results: `reportUsage_eq_ok` (what a call that succeeds did) and `applyBatch_eq_ok` (a
committed batch adds its entries).
-/

namespace Bifurcation.Panel

open Javascript

/-! ## Amounts -/

namespace BucketRow

instance : Zero BucketRow := ⟨⟨0, 0, false, false⟩⟩

instance : Add BucketRow := ⟨fun a b =>
  ⟨a.uploadBytes + b.uploadBytes, a.downloadBytes + b.downloadBytes, a.estimated || b.estimated,
    a.incomplete || b.incomplete⟩⟩

@[simp] theorem zero_uploadBytes : (0 : BucketRow).uploadBytes = 0 := rfl

@[simp] theorem zero_downloadBytes : (0 : BucketRow).downloadBytes = 0 := rfl

@[simp] theorem zero_incomplete : (0 : BucketRow).incomplete = false := rfl

@[simp] theorem add_uploadBytes (a b : BucketRow) :
    (a + b).uploadBytes = a.uploadBytes + b.uploadBytes := rfl

@[simp] theorem add_downloadBytes (a b : BucketRow) :
    (a + b).downloadBytes = a.downloadBytes + b.downloadBytes := rfl

@[simp] theorem add_incomplete (a b : BucketRow) :
    (a + b).incomplete = (a.incomplete || b.incomplete) := rfl

theorem ext_fields {a b : BucketRow} (hup : a.uploadBytes = b.uploadBytes)
    (hdown : a.downloadBytes = b.downloadBytes) (hest : a.estimated = b.estimated)
    (hinc : a.incomplete = b.incomplete) : a = b := by
  cases a
  cases b
  simp_all

instance : AddCommMonoid BucketRow where
  add_assoc a b c := ext_fields (add_assoc _ _ _) (add_assoc _ _ _) (Bool.or_assoc _ _ _)
    (Bool.or_assoc _ _ _)
  zero_add a := ext_fields (zero_add _) (zero_add _) (Bool.false_or _) (Bool.false_or _)
  add_zero a := ext_fields (add_zero _) (add_zero _) (Bool.or_false _) (Bool.or_false _)
  add_comm a b := ext_fields (add_comm _ _) (add_comm _ _) (Bool.or_comm _ _) (Bool.or_comm _ _)
  nsmul := nsmulRec

end BucketRow

/-! ## Checks -/

def invalidUsage (message : String) : PanelError := .connect message .invalidArgument

/-- `/^[a-f0-9]{64}$/`. -/
def isSha256Text (s : String) : Bool :=
  s.length = 64 && s.toList.all fun c => c.isDigit || ('a' ≤ c && c ≤ 'f')

def checkRequest (request : ReportUsageRequest) : Except PanelError Unit := do
  failIf (isIdentity request.streamId = false) (invalidUsage "invalid usage stream ID")
  failIf (request.sequence ≤ 0 ∨ request.sequence > maxInt64)
    (invalidUsage "usage sequence out of range")
  failIf (request.payload.length > 1024 * 1024)
    (.connect "usage payload too large" .resourceExhausted)
  failIf (isSha256Text request.payloadSha256 = false ∨
      sha256 request.payload ≠ request.payloadSha256)
    (invalidUsage "usage payload hash mismatch")

def checkMetadata (batch : UsageBatch) : Except PanelError Unit :=
  failIf (batch.coreRuntimeId = "" ∨ (utf16 batch.coreRuntimeId).length > 256 ∨
      batch.deltas.length = 0 ∨ batch.deltas.length > 256)
    (invalidUsage "invalid usage batch metadata")

/-- The checks on the interval and the bytes of a delta. -/
def checkDelta (now : Int) (delta : UsageDelta) : Except PanelError Unit := do
  failIf (delta.startUnixMs < 0 ∨ delta.endUnixMs > maxSafeInteger ∨
      delta.endUnixMs ≤ delta.startUnixMs) (invalidUsage "invalid usage interval")
  failIf (delta.endUnixMs > now + 5 * 60000 ∨ delta.endUnixMs - delta.startUnixMs > dayMilliseconds)
    (invalidUsage "usage interval is outside accepted bounds")
  failIf (delta.uploadBytes < 0 ∨ delta.downloadBytes < 0 ∨
      delta.uploadBytes + delta.downloadBytes > maxInt64)
    (invalidUsage "usage bytes out of range")

/-! ## Projections -/

/-- The start of the oldest minutes that are kept. -/
def minuteCutoff (now : Int) : Int := now - 30 * dayMilliseconds

/-- The buckets that are written: all but the minutes before the cut-off. -/
def Share.kept (now : Int) (grain : Grain) (bucket : Share) : Bool :=
  grain ≠ .minute || bucket.start.any fun start => minuteCutoff now ≤ start

/-- What one delta adds to `projectionCount` at one grain. -/
def projected (now : Int) (grain : Grain) (upload : List Share) : ℕ :=
  (upload.filter (Share.kept now grain)).length

/-- The body of the loop over the buckets of one grain: the upsert of one bucket. -/
def addBucket (machineId : String) (delta : UsageDelta) (grain : Grain) (spread : Bool)
    (db : Database) (bucket : Share × Share) : Except PanelError Database := do
  let previous := bucket.1.start.bind fun start =>
    db.usageBuckets.get? ⟨grain, start, delta.userId, machineId⟩
  let values := previous.getD 0 +
    ⟨bucket.1.bytes, bucket.2.bytes, delta.estimated || spread, delta.incomplete⟩
  failIf (values.total > maxInt64) (.connect "usage bucket overflow" .outOfRange)
  -- A `NaN` start is stored as `NULL`, which the column refuses.
  let start ← found .constraint bucket.1.start
  return { db with
    usageBuckets := db.usageBuckets.set ⟨grain, start, delta.userId, machineId⟩ values }

/-- The refusal of a batch that takes too long to project. -/
def spansTooMany : PanelError :=
  .connect "usage batch spans too many time buckets" .resourceExhausted

/-- The loop over the buckets of one grain. -/
def addGrain (machineId : String) (now : Int) (delta : UsageDelta)
    (minuteUpload minuteDownload : List Share) (state : ℕ × Database) (grain : Grain) :
    Except PanelError (ℕ × Database) := do
  let upload := rollupMinutes minuteUpload grain
  let download := rollupMinutes minuteDownload grain
  let count := state.1 + projected now grain upload
  failIf (count > 20000) spansTooMany
  let db ← ((upload.zip download).filter fun bucket => bucket.1.kept now grain).foldlM
    (addBucket machineId delta grain (decide (upload.length > 1))) state.2
  return (count, db)

def grains : List Grain := [.minute, .day, .month]

/-- The users a machine was ever authorized for. -/
def knownUsers (machineId : String) (db : Database) : List String :=
  (db.machineUserHistory.rows.filter fun row => row.1.1 = machineId).map fun row => row.1.2

/-- The body of the loop over the deltas. One canonical attribution prevents independent
remainder rounding from disagreeing between minute, day and month views of the same sample. -/
def addDelta (machineId : String) (known : List String) (now : Int) (state : ℕ × Database)
    (delta : UsageDelta) : Except PanelError (ℕ × Database) := do
  failIf (delta.userId ∉ known)
    (invalidUsage "usage user has never been authorized on this machine")
  checkDelta now delta
  let minuteUpload ← found .range
    (splitBytes delta.startUnixMs delta.endUnixMs delta.uploadBytes .minute)
  let minuteDownload ← found .range
    (splitBytes delta.startUnixMs delta.endUnixMs delta.downloadBytes .minute)
  grains.foldlM (addGrain machineId now delta minuteUpload minuteDownload) state

/-- The loop over the deltas. -/
def applyBatch (machineId : String) (now : Int) (batch : UsageBatch) (db : Database) :
    Except PanelError Database := do
  let (_, db) ← batch.deltas.foldlM (addDelta machineId (knownUsers machineId db) now) (0, db)
  return db

/-! ## Calls -/

/-- What the transaction writes for the next sequence of a stream. -/
def commitBatch (vault : Vault) (fresh : String → String) (codec : Codec) (key : UsageStreamKey)
    (request : ReportUsageRequest) (now : Int) (db : Database) : Except PanelError Database := do
  let batch ← found (invalidUsage "invalid usage protobuf")
    (codec.usageBatchFromBinary request.payload)
  checkMetadata batch
  let db ← applyBatch key.machineId now batch db
  -- Quota cache and the durable authorization revision are committed with accounting.
  let (_, db) ← refresh vault fresh now db
  return { db with
    usageStreams := db.usageStreams.set key ⟨request.sequence, request.payloadSha256, now⟩ }

/-- The committed sequence of a stream. -/
def committedOf (key : UsageStreamKey) (db : Database) : Int :=
  ((db.usageStreams.get? key).map (·.committedSequence)).getD 0

def reportUsage (vault : Vault) (fresh : String → String) (codec : Codec) (id : String)
    (row : MachineRow) (request : ReportUsageRequest) (now : Int) (db : Database) :
    Except PanelError (ReportUsageResponse × Database) := do
  let identity ← assertInstallation row request.installation false
  checkRequest request
  let key : UsageStreamKey := ⟨id, identity.installationId, request.streamId⟩
  let committed := committedOf key db
  if request.sequence ≤ committed then
    failIf (request.sequence = committed ∧
        (db.usageStreams.get? key).map (·.lastPayloadHash) ≠ some request.payloadSha256)
      (.connect "USAGE_PAYLOAD_CONFLICT" .alreadyExists)
    return (⟨committed, committed + 1⟩, db)
  else if request.sequence ≠ committed + 1 then
    return (⟨committed, committed + 1⟩, db)
  else
    let db ← commitBatch vault fresh codec key request now db
    return (⟨request.sequence, request.sequence + 1⟩, db)

/-- The `reportUsage` handler up to the reconciliation, which is a call of its own. -/
def submitUsage (vault : Vault) (fresh : String → String) (codec : Codec) (header : Option String)
    (request : ReportUsageRequest) (now : Int) (db : Database) :
    Except PanelError (ReportUsageResponse × Database) := do
  let machine ← authenticateActive db header
  reportUsage vault fresh codec machine.1 machine.2 request now db

/-- The keys `cleanMinutes` deletes: of the minutes before the cut-off the oldest thousand. -/
def expiredMinutes (now : Int) (db : Database) : List BucketKey :=
  (((db.usageBuckets.rows.map Prod.fst).filter fun key =>
    key.grain = .minute && key.bucketStart < minuteCutoff now).insertionSort
      (·.bucketStart ≤ ·.bucketStart)).take 1000

def cleanMinutes (now : Int) (db : Database) : Database :=
  { db with
    usageBuckets := db.usageBuckets.deleteWhere fun key _ => key ∈ expiredMinutes now db }

/-! ## What a committed batch adds -/

/-- An amount for a bucket. -/
abbrev UsageEntry := BucketKey × BucketRow

/-- The database with some entries added: what the upserts do. -/
def Database.addEntries (entries : List UsageEntry) (db : Database) : Database :=
  { db with usageBuckets := entries.foldl Table.accumulate db.usageBuckets }

theorem Database.addEntries_append (es es' : List UsageEntry) (db : Database) :
    db.addEntries (es ++ es') = (db.addEntries es).addEntries es' := by
  rw [addEntries, addEntries, addEntries, List.foldl_append]

/-- The entry of one bucket. -/
def entryOf (machineId : String) (delta : UsageDelta) (grain : Grain) (spread : Bool)
    (bucket : Share × Share) : Option UsageEntry :=
  bucket.1.start.map fun start => (⟨grain, start, delta.userId, machineId⟩,
    ⟨bucket.1.bytes, bucket.2.bytes, delta.estimated || spread, delta.incomplete⟩)

/-- The entries of the minutes of a delta at one grain. -/
def grainEntries (machineId : String) (now : Int) (delta : UsageDelta)
    (minuteUpload minuteDownload : List Share) (grain : Grain) : List UsageEntry :=
  let upload := rollupMinutes minuteUpload grain
  let download := rollupMinutes minuteDownload grain
  ((upload.zip download).filter fun bucket => bucket.1.kept now grain).filterMap
    (entryOf machineId delta grain (decide (upload.length > 1)))

/-- The minutes of some bytes of a delta. -/
def minutesOf (delta : UsageDelta) (bytes : Int) : List Share :=
  (splitBytes delta.startUnixMs delta.endUnixMs bytes .minute).getD []

/-- The entries of a delta at one grain. -/
def deltaEntries (machineId : String) (now : Int) (delta : UsageDelta) (grain : Grain) :
    List UsageEntry :=
  grainEntries machineId now delta (minutesOf delta delta.uploadBytes)
    (minutesOf delta delta.downloadBytes) grain

/-- The entries of a batch. -/
def batchEntries (machineId : String) (now : Int) (batch : UsageBatch) : List UsageEntry :=
  batch.deltas.flatMap fun delta => grains.flatMap (deltaEntries machineId now delta)

/-- Everything a delta that passes the checks adds to the count of the panel. -/
def projectionCount (now : Int) (delta : UsageDelta) : ℕ :=
  (grains.map fun grain =>
    projected now grain (rollupMinutes (minutesOf delta delta.uploadBytes) grain)).sum

/-- The months of a delta are dates: a bucket without a start is not stored. -/
def Monthly (delta : UsageDelta) : Prop :=
  ∀ bucket ∈ (rollupMinutes (minutesOf delta delta.uploadBytes) .month).zip
    (rollupMinutes (minutesOf delta delta.downloadBytes) .month), bucket.1.start.isSome

section Spec

variable {machineId : String} {now : Int} {delta : UsageDelta}

/-- One upsert adds one entry. -/
theorem addBucket_eq_ok {grain : Grain} {spread : Bool} {db db' : Database}
    {bucket : Share × Share}
    (h : addBucket machineId delta grain spread db bucket = .ok db') :
    ∃ entry, entryOf machineId delta grain spread bucket = some entry ∧
      db' = db.addEntries [entry] := by
  simp only [addBucket, bind_eq_ok, failIf_eq_ok, found_eq_ok, pure_eq_ok, exists_const] at h
  obtain ⟨-, start, hstart, rfl⟩ := h
  refine ⟨_, by rw [entryOf, hstart, Option.map_some], ?_⟩
  rw [hstart, Option.bind_some]
  rfl

/-- The entries of the first buckets are added first. -/
theorem foldlM_addBucket {grain : Grain} {spread : Bool} {db db' : Database}
    {buckets : List (Share × Share)}
    (h : buckets.foldlM (addBucket machineId delta grain spread) db = .ok db') :
    db' = db.addEntries (buckets.filterMap (entryOf machineId delta grain spread)) ∧
      ∀ bucket ∈ buckets, bucket.1.start.isSome := by
  induction buckets generalizing db with
  | nil =>
    simp only [List.foldlM_nil, pure_eq_ok] at h
    exact ⟨h.symm, by simp⟩
  | cons bucket buckets ih =>
    simp only [List.foldlM_cons, bind_eq_ok] at h
    obtain ⟨db₁, hone, hrest⟩ := h
    obtain ⟨entry, hentry, rfl⟩ := addBucket_eq_ok hone
    obtain ⟨hdb', hsome⟩ := ih hrest
    refine ⟨?_, ?_⟩
    · rw [hdb', List.filterMap_cons, hentry, ← Database.addEntries_append]
      rfl
    · intro b hb
      rcases List.mem_cons.1 hb with rfl | hb
      · rw [entryOf] at hentry
        cases hstart : b.1.start with
        | none => rw [hstart] at hentry; cases hentry
        | some start => rfl
      · exact hsome b hb

theorem addGrain_eq_ok {minuteUpload minuteDownload : List Share} {state state' : ℕ × Database}
    {grain : Grain}
    (h : addGrain machineId now delta minuteUpload minuteDownload state grain = .ok state') :
    state'.1 = state.1 + projected now grain (rollupMinutes minuteUpload grain) ∧
      state'.1 ≤ 20000 ∧
      state'.2 = state.2.addEntries
        (grainEntries machineId now delta minuteUpload minuteDownload grain) ∧
      ∀ bucket ∈ (rollupMinutes minuteUpload grain).zip (rollupMinutes minuteDownload grain),
        bucket.1.kept now grain = true → bucket.1.start.isSome := by
  simp only [addGrain, bind_eq_ok, failIf_eq_ok, pure_eq_ok, exists_const] at h
  obtain ⟨hcount, db, hloop, rfl⟩ := h
  obtain ⟨hdb, hsome⟩ := foldlM_addBucket hloop
  exact ⟨rfl, not_lt.1 hcount, hdb, fun bucket hb hkept =>
    hsome bucket (List.mem_filter.2 ⟨hb, hkept⟩)⟩

/-- What a delta that is accepted was checked for and adds. -/
theorem addDelta_eq_ok {known : List String} {state state' : ℕ × Database}
    (h : addDelta machineId known now state delta = .ok state') :
    delta.userId ∈ known ∧ checkDelta now delta = .ok () ∧ Monthly delta ∧
      state'.1 = state.1 + projectionCount now delta ∧
      state'.2 = state.2.addEntries (grains.flatMap (deltaEntries machineId now delta)) := by
  simp only [addDelta, bind_eq_ok, failIf_eq_ok, found_eq_ok, exists_const, not_not] at h
  obtain ⟨hknown, _, hcheck, ups, hups, downs, hdowns, h⟩ := h
  have hups' : minutesOf delta delta.uploadBytes = ups := by rw [minutesOf, hups, Option.getD_some]
  have hdowns' : minutesOf delta delta.downloadBytes = downs := by
    rw [minutesOf, hdowns, Option.getD_some]
  refine ⟨hknown, hcheck, ?_⟩
  unfold projectionCount Monthly
  rw [hups', hdowns']
  simp only [grains, List.foldlM_cons, List.foldlM_nil, bind_eq_ok, pure_eq_ok] at h
  obtain ⟨s₁, h₁, s₂, h₂, s₃, h₃, rfl⟩ := h
  obtain ⟨hcount₁, -, hdb₁, -⟩ := addGrain_eq_ok h₁
  obtain ⟨hcount₂, -, hdb₂, -⟩ := addGrain_eq_ok h₂
  obtain ⟨hcount₃, -, hdb₃, hmonths⟩ := addGrain_eq_ok h₃
  refine ⟨fun bucket hb => hmonths bucket hb rfl, ?_, ?_⟩
  · rw [hcount₃, hcount₂, hcount₁]
    simp only [grains, List.map_cons, List.map_nil, List.sum_cons, List.sum_nil]
    omega
  · rw [hdb₃, hdb₂, hdb₁]
    simp only [grains, List.flatMap_cons, List.flatMap_nil, List.append_nil,
      Database.addEntries_append, deltaEntries, hups', hdowns']

/-- **A batch that is accepted adds its entries.** -/
theorem applyBatch_eq_ok {batch : UsageBatch} {db db' : Database}
    (h : applyBatch machineId now batch db = .ok db') :
    (∀ d ∈ batch.deltas, d.userId ∈ knownUsers machineId db ∧ checkDelta now d = .ok () ∧
      Monthly d) ∧
      db' = db.addEntries (batchEntries machineId now batch) := by
  simp only [applyBatch, bind_eq_ok, pure_eq_ok] at h
  obtain ⟨state, hloop, rfl⟩ := h
  exact foldlM_induction_prefix
    (I := fun (done : List UsageDelta) (s : ℕ × Database) =>
      (∀ d ∈ done, d.userId ∈ knownUsers machineId db ∧ checkDelta now d = .ok () ∧
        Monthly d) ∧
      s.2 = db.addEntries (done.flatMap fun d => grains.flatMap (deltaEntries machineId now d)))
    (by
      intro done s d s' hs hstep
      obtain ⟨hknown, hcheck, hmonthly, -, hdb⟩ := addDelta_eq_ok hstep
      refine ⟨fun d' hd' => ?_, ?_⟩
      · rcases List.mem_append.1 hd' with hd' | hd'
        · exact hs.1 d' hd'
        · obtain rfl := List.mem_singleton.1 hd'
          exact ⟨hknown, hcheck, hmonthly⟩
      · rw [hdb, hs.2, List.flatMap_append, List.flatMap_singleton, Database.addEntries_append])
    [] hloop ⟨by simp, rfl⟩

/-! ## What a refused batch spans -/

theorem addBucket_ne_spans {grain : Grain} {spread : Bool} {db : Database}
    {bucket : Share × Share} :
    addBucket machineId delta grain spread db bucket ≠ .error spansTooMany := by
  intro h
  simp only [addBucket, bind_eq_error, failIf_eq_error, failIf_eq_ok, found_eq_error,
    pure_ne_error, and_false, exists_false, or_false] at h
  rcases h with ⟨-, h⟩ | ⟨-, -, -, h⟩
  · exact absurd h (by decide)
  · exact absurd h (by decide)

theorem checkDelta_ne_spans : checkDelta now delta ≠ .error spansTooMany := by
  intro h
  simp only [checkDelta, bind_eq_error, failIf_eq_error, failIf_eq_ok] at h
  rcases h with ⟨-, h⟩ | ⟨-, -, ⟨-, h⟩ | ⟨-, -, -, h⟩⟩
  · exact absurd h (by decide)
  · exact absurd h (by decide)
  · exact absurd h (by decide)

theorem addGrain_spans {minuteUpload minuteDownload : List Share} {state : ℕ × Database}
    {grain : Grain} (h : addGrain machineId now delta minuteUpload minuteDownload state grain =
      .error spansTooMany) :
    20000 < state.1 + projected now grain (rollupMinutes minuteUpload grain) := by
  simp only [addGrain, bind_eq_error, failIf_eq_error, pure_ne_error, and_false, exists_false,
    or_false, and_true] at h
  rcases h with h | ⟨-, -, h⟩
  · exact h
  · obtain ⟨before, bucket, after, db, -, -, hbucket⟩ := foldlM_eq_error h
    exact absurd hbucket addBucket_ne_spans

theorem addDelta_spans {known : List String} {state : ℕ × Database}
    (h : addDelta machineId known now state delta = .error spansTooMany) :
    20000 < state.1 + projectionCount now delta := by
  simp only [addDelta, bind_eq_error, failIf_eq_error, failIf_eq_ok, found_eq_error, found_eq_ok]
    at h
  rcases h with ⟨-, h⟩ | ⟨-, -, h | ⟨-, -, ⟨-, h⟩ | ⟨ups, hups, ⟨-, h⟩ | ⟨downs, -, h⟩⟩⟩⟩
  · exact absurd h (by decide)
  · exact absurd h checkDelta_ne_spans
  · exact absurd h (by decide)
  · exact absurd h (by decide)
  · have hcount : projectionCount now delta = (grains.map fun grain =>
        projected now grain (rollupMinutes ups grain)).sum := by
      simp only [projectionCount, minutesOf, hups, Option.getD_some]
    rw [hcount]
    simp only [grains, List.map_cons, List.map_nil, List.sum_cons, List.sum_nil]
    simp only [grains, List.foldlM_cons, List.foldlM_nil, bind_eq_error, pure_ne_error, and_false,
      exists_false, or_false] at h
    rcases h with h | ⟨s₁, h₁, h | ⟨s₂, h₂, h⟩⟩
    · have hover := addGrain_spans h
      omega
    · have hcount₁ := (addGrain_eq_ok h₁).1
      have hover := addGrain_spans h
      omega
    · have hcount₁ := (addGrain_eq_ok h₁).1
      have hcount₂ := (addGrain_eq_ok h₂).1
      have hover := addGrain_spans h
      omega

/-- A batch is refused for its span only if it has more than 20000 projections. -/
theorem applyBatch_spans {batch : UsageBatch} {db : Database}
    (h : applyBatch machineId now batch db = .error spansTooMany) :
    20000 < (batch.deltas.map (projectionCount now)).sum := by
  simp only [applyBatch, bind_eq_error, pure_ne_error, and_false, exists_false, or_false] at h
  obtain ⟨before, d, after, state, hdeltas, hbefore, hd⟩ := foldlM_eq_error h
  have hcount : state.1 = (before.map (projectionCount now)).sum := by
    have hall := foldlM_induction_prefix
      (I := fun (done : List UsageDelta) (s : ℕ × Database) =>
        s.1 = (done.map (projectionCount now)).sum)
      (by
        intro done s d s' hs hstep
        obtain ⟨-, -, -, hone, -⟩ := addDelta_eq_ok hstep
        rw [hone, hs, List.map_append, List.sum_append, List.map_singleton, List.sum_singleton])
      [] hbefore rfl
    exact hall
  have hlast := addDelta_spans hd
  rw [hdeltas, List.map_append, List.sum_append, List.map_cons, List.sum_cons]
  omega

end Spec

/-! ## What a call did -/

/-- The next sequence of a stream was checked and committed. -/
structure Committed (vault : Vault) (fresh : String → String) (codec : Codec)
    (key : UsageStreamKey) (request : ReportUsageRequest) (now : Int) (batch : UsageBatch)
    (db db' : Database) : Prop where
  next : request.sequence = committedOf key db + 1
  decoded : codec.usageBatchFromBinary request.payload = some batch
  metadata : checkMetadata batch = .ok ()
  deltas : ∀ d ∈ batch.deltas, d.userId ∈ knownUsers key.machineId db ∧
    checkDelta now d = .ok () ∧ Monthly d
  buckets : db'.usageBuckets =
    (batchEntries key.machineId now batch).foldl Table.accumulate db.usageBuckets
  streams : db'.usageStreams =
    db.usageStreams.set key ⟨request.sequence, request.payloadSha256, now⟩
  rest : SameBut { db with usageBuckets := db'.usageBuckets, usageStreams := db'.usageStreams } db'

section Calls

variable {vault : Vault} {fresh : String → String} {codec : Codec} {now : Int} {db db' : Database}

theorem commitBatch_eq_ok {key : UsageStreamKey} {request : ReportUsageRequest}
    (hnext : request.sequence = committedOf key db + 1)
    (h : commitBatch vault fresh codec key request now db = .ok db') :
    ∃ batch, Committed vault fresh codec key request now batch db db' := by
  simp only [commitBatch, bind_eq_ok, found_eq_ok, pure_eq_ok] at h
  obtain ⟨batch, hdecoded, u, hmeta, db₁, happly, ⟨answer, db₂⟩, hrefresh, rfl⟩ := h
  obtain ⟨hdeltas, rfl⟩ := applyBatch_eq_ok happly
  obtain ⟨c, q, p, rfl⟩ := refresh_frame hrefresh
  exact ⟨batch, hnext, hdecoded, hmeta, hdeltas, rfl, rfl, c, q, p, rfl⟩

/-- **What a call that succeeds did.** It changed nothing, or it committed the next sequence of
its stream. -/
theorem reportUsage_eq_ok {id : String} {row : MachineRow} {request : ReportUsageRequest}
    {response : ReportUsageResponse}
    (h : reportUsage vault fresh codec id row request now db = .ok (response, db')) :
    ∃ identity, assertInstallation row request.installation false = .ok identity ∧
      checkRequest request = .ok () ∧
      let key : UsageStreamKey := ⟨id, identity.installationId, request.streamId⟩
      (db' = db ∧ response = ⟨committedOf key db, committedOf key db + 1⟩ ∧
        request.sequence ≠ committedOf key db + 1 ∧
        (request.sequence = committedOf key db →
          (db.usageStreams.get? key).map (·.lastPayloadHash) = some request.payloadSha256)) ∨
      (response = ⟨request.sequence, request.sequence + 1⟩ ∧
        ∃ batch, Committed vault fresh codec key request now batch db db') := by
  simp only [reportUsage, bind_eq_ok] at h
  obtain ⟨identity, hidentity, u, hcheck, h⟩ := h
  refine ⟨identity, hidentity, hcheck, ?_⟩
  by_cases hold : request.sequence ≤ committedOf ⟨id, identity.installationId, request.streamId⟩ db
  · simp only [if_pos hold, bind_eq_ok, failIf_eq_ok, pure_eq_ok, exists_const,
      Prod.mk.injEq] at h
    obtain ⟨hhash, rfl, rfl⟩ := h
    refine .inl ⟨rfl, rfl, by omega, fun heq => ?_⟩
    by_contra hne
    exact hhash ⟨heq, hne⟩
  · rw [if_neg hold] at h
    by_cases hnext :
        request.sequence = committedOf ⟨id, identity.installationId, request.streamId⟩ db + 1
    · simp only [ne_eq, hnext, not_true_eq_false, if_false, bind_eq_ok, pure_eq_ok,
        Prod.mk.injEq] at h
      obtain ⟨db₁, hcommit, rfl, rfl⟩ := h
      exact .inr ⟨by rw [hnext], commitBatch_eq_ok hnext hcommit⟩
    · simp only [ne_eq, hnext, not_false_eq_true, if_true, pure_eq_ok, Prod.mk.injEq] at h
      obtain ⟨rfl, rfl⟩ := h
      exact .inl ⟨rfl, rfl, hnext, fun heq => absurd heq.le hold⟩

end Calls

end Bifurcation.Panel
