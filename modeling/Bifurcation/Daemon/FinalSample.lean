import Bifurcation.Daemon.Lifecycle
import Bifurcation.Daemon.UsageSpec

/-!
# Sampling one runtime to its end

One runtime of the adapter is sampled in a fixed order: the zero baseline in `start`, any number
of periodic samples, and the final sample in `closeInstance`, which `retryFinal` repeats while
it is refused. Whether `RecordSample` accepts all of them is decided by one condition: two
consecutive readings in the same millisecond must show the same counters.
-/

namespace Bifurcation.Daemon

/-- The persistence callback, `finalSample` of the panel client. -/
def finalSample (streamID : String) (s : Store) (counters : List Counter) :
    Except StoreError Store :=
  if counters.length = 0 then .ok s else do
    let out ← recordSample streamID counters s
    return out.2

/-! ## When a sample is accepted -/

theorem openStream_ne_counterRegression {streamID : String} {streams : Table String StreamRow} :
    openStream streamID streams ≠ .error .counterRegression := by
  unfold openStream
  cases streams.get? streamID with
  | some st => simp
  | none => simp only; split_ifs <;> simp

theorem appendBatch_ne_counterRegression {streamID : String} {nextSeq : Int} {tx : AppendTx}
    {m : UsageBatch} : appendBatch streamID nextSeq tx m ≠ .error .counterRegression := by
  simp only [appendBatch, ne_eq, bind_eq_error, failIf_eq_error, found_eq_error, pure_ne_error,
    reduceCtorEq, and_false, exists_false, or_false, not_false_eq_true]

theorem foldlM_appendBatch_ne_counterRegression {streamID : String} {nextSeq : Int}
    {tx : AppendTx} {ms : List UsageBatch} :
    ms.foldlM (appendBatch streamID nextSeq) tx ≠ .error .counterRegression := by
  induction ms generalizing tx with
  | nil => simp
  | cons m ms ih =>
    simp only [List.foldlM_cons, ne_eq, bind_eq_error, not_or, not_exists, not_and]
    exact ⟨appendBatch_ne_counterRegression, fun tx' _ => ih⟩

/-- Only the sampling loop answers `ErrCounterRegression`. -/
theorem recordCounters_of_counterRegression {streamID : String} {counters : List Counter}
    {s : Store} (h : recordSample streamID counters s = .error .counterRegression) :
    recordCounters streamID s.cursors counters = .error .counterRegression := by
  simp only [recordSample, bind_eq_error, pure_ne_error, and_false, exists_false, or_false] at h
  rcases h with h | ⟨⟨st, streams⟩, -, h | ⟨tx, -, h⟩⟩
  · exact absurd h openStream_ne_counterRegression
  · exact h
  · exact absurd h foldlM_appendBatch_ne_counterRegression

/-- What the sampling loop leaves under the key of each counter it read. -/
theorem foldlM_recordCounter {streamID : String} {counters : List Counter} {tx tx' : SampleTx}
    (h : counters.foldlM (recordCounter streamID) tx = .ok tx') :
    (∀ c ∈ counters, c.userID ∉ tx.seen ∧
      ∃ r, meterCounter (tx.cursors.get? (cursorID streamID c.userID)) c = .ok r ∧
        tx'.cursors.get? (cursorID streamID c.userID) = if r.isSome then some (cursorOf c) else
          tx.cursors.get? (cursorID streamID c.userID)) ∧
    ∀ id, (∀ c ∈ counters, id ≠ cursorID streamID c.userID) →
      tx'.cursors.get? id = tx.cursors.get? id := by
  induction counters generalizing tx with
  | nil => simp only [List.foldlM_nil, pure_eq_ok] at h; simp [h]
  | cons c cs ih =>
    simp only [List.foldlM_cons, bind_eq_ok] at h
    obtain ⟨t, hc, hrest⟩ := h
    obtain ⟨hgood, -, r, hr, rfl⟩ := recordCounter_spec hc
    obtain ⟨hread, hkeep⟩ := ih hrest
    have hnotseen : c.userID ∉ tx.seen := fun hin => hgood (by simp [badCounter, hin])
    have hother (id : String) (hne : id ≠ cursorID streamID c.userID) :
        (if r.isSome then tx.cursors.set (cursorID streamID c.userID) (cursorOf c)
          else tx.cursors).get? id = tx.cursors.get? id := by
      split_ifs
      · exact Table.get?_set_of_ne _ _ hne
      · rfl
    refine ⟨fun d hd => ?_, fun id hid => ?_⟩
    · rcases List.mem_cons.1 hd with rfl | hd
      · refine ⟨hnotseen, r, hr, ?_⟩
        rw [hkeep _ fun e he heq => ?_]
        · simp only; split_ifs <;> simp
        · have := (hread e he).1
          simp [(cursorID_inj heq).2] at this
      · obtain ⟨hnot, r', hr', hget⟩ := hread d hd
        simp only [List.mem_cons, not_or] at hnot
        have hne : cursorID streamID d.userID ≠ cursorID streamID c.userID :=
          fun he => hnot.1 (cursorID_inj he).2
        rw [hother _ hne] at hr' hget
        exact ⟨hnot.2, r', hr', hget⟩
    · rw [hkeep id fun d hd => hid d (List.mem_cons_of_mem c hd)]
      exact hother id (hid c List.mem_cons_self)

/-- The loop accepts well-formed counters of one runtime when it accepts each of them. -/
theorem foldlM_recordCounter_ok {streamID runtimeID : String} {counters : List Counter}
    (tx : SampleTx) (hrun : ∀ c ∈ counters, c.runtimeID = runtimeID)
    (hgood : ∀ c ∈ counters, ¬ badCounter [] c) (hnodup : (counters.map (·.userID)).Nodup)
    (hseen : ∀ c ∈ counters, c.userID ∉ tx.seen) (htx : tx.runtimeID = "" ∨ tx.runtimeID = runtimeID)
    (hmeter : ∀ c ∈ counters,
      ∃ r, meterCounter (tx.cursors.get? (cursorID streamID c.userID)) c = .ok r) :
    ∃ tx', counters.foldlM (recordCounter streamID) tx = .ok tx' := by
  induction counters generalizing tx with
  | nil => exact ⟨tx, rfl⟩
  | cons c cs ih =>
    obtain ⟨r, hm⟩ := hmeter c List.mem_cons_self
    have hcr := hrun c List.mem_cons_self
    have hgoodc : ¬ badCounter tx.seen c := by
      have h0 := hgood c List.mem_cons_self
      have h1 := hseen c List.mem_cons_self
      simp only [badCounter, List.not_mem_nil, or_false, not_or] at h0 ⊢
      exact ⟨h0.1, h0.2.1, h0.2.2.1, h0.2.2.2.1, h0.2.2.2.2.1, h0.2.2.2.2.2.1, h0.2.2.2.2.2.2.1,
        h0.2.2.2.2.2.2.2, h1⟩
    have hid : tx.runtimeID = "" ∨ c.runtimeID = tx.runtimeID := htx.imp_right (hcr.trans ·.symm)
    obtain ⟨t, ht, hcursors, hseen', hrun'⟩ := recordCounter_ok hid hgoodc hm
    simp only [List.map_cons, List.nodup_cons] at hnodup
    have hne : ∀ d ∈ cs, d.userID ≠ c.userID := fun d hd he =>
      hnodup.1 (he ▸ List.mem_map_of_mem hd)
    obtain ⟨tx', htx'⟩ := ih t (fun d hd => hrun d (List.mem_cons_of_mem c hd))
      (fun d hd => hgood d (List.mem_cons_of_mem c hd)) hnodup.2
      (fun d hd => by
        rw [hseen']; simpa [hne d hd] using hseen d (List.mem_cons_of_mem c hd))
      (.inr (hrun'.trans hcr))
      (fun d hd => by
        have hkey : cursorID streamID d.userID ≠ cursorID streamID c.userID :=
          fun he => hne d hd (cursorID_inj he).2
        obtain ⟨r'', h⟩ := hmeter d (List.mem_cons_of_mem c hd)
        refine ⟨r'', ?_⟩
        rw [hcursors]
        split_ifs
        · rwa [Table.get?_set_of_ne _ _ hkey]
        · exact h)
    exact ⟨tx', by simp only [List.foldlM_cons, bind_eq_ok]; exact ⟨t, ht, htx'⟩⟩

/-- The database works and the outbox has room: a sample is refused only for its counters. -/
def Works (streamID : String) (s : Store) (counters : List Counter) : Prop :=
  match finalSample streamID s counters with
  | .ok _ => True
  | .error e => e = .counterRegression

instance (streamID : String) (s : Store) (counters : List Counter) :
    Decidable (Works streamID s counters) := by
  unfold Works; split <;> infer_instance

theorem finalSample_ok {streamID : String} (runtimeID : String) {s : Store}
    {counters : List Counter} (hrun : ∀ c ∈ counters, c.runtimeID = runtimeID)
    (hgood : ∀ c ∈ counters, ¬ badCounter [] c) (hnodup : (counters.map (·.userID)).Nodup)
    (hworks : Works streamID s counters)
    (hmeter : ∀ c ∈ counters,
      ∃ r, meterCounter (s.cursors.get? (cursorID streamID c.userID)) c = .ok r) :
    ∃ s', finalSample streamID s counters = .ok s' := by
  by_contra hnot
  obtain ⟨e, he⟩ : ∃ e, finalSample streamID s counters = .error e := by
    cases h : finalSample streamID s counters with
    | ok s' => exact absurd ⟨s', h⟩ hnot
    | error e => exact ⟨e, rfl⟩
  obtain rfl : e = .counterRegression := by simpa [Works, he] using hworks
  unfold finalSample at he
  split_ifs at he
  simp only [bind_eq_error, pure_ne_error, and_false, exists_false, or_false] at he
  have hloop := recordCounters_of_counterRegression he
  obtain ⟨tx, htx⟩ := foldlM_recordCounter_ok ⟨s.cursors, [], [], ""⟩ hrun hgood hnodup
    (by simp) (.inl rfl) hmeter
  rw [recordCounters, htx] at hloop
  cases hloop

theorem finalSample_cursors {streamID : String} {s s' : Store} {counters : List Counter}
    (h : finalSample streamID s counters = .ok s') : ∀ c ∈ counters,
      ∃ r, meterCounter (s.cursors.get? (cursorID streamID c.userID)) c = .ok r ∧
        s'.cursors.get? (cursorID streamID c.userID) = if r.isSome then some (cursorOf c) else
          s.cursors.get? (cursorID streamID c.userID) := by
  intro c hc
  unfold finalSample at h
  split_ifs at h with hempty
  · simp [List.length_eq_zero_iff.1 hempty] at hc
  · simp only [bind_eq_ok, pure_eq_ok] at h
    obtain ⟨⟨first, s''⟩, hrec, rfl⟩ := h
    obtain ⟨⟨tx, htx, hcur⟩, -⟩ := recordSample_spec hrec
    rw [hcur]
    exact ((foldlM_recordCounter htx).1 c hc).2

/-! ## The samples of one runtime -/

/-- What the tracker shows when it is read. -/
structure Reading where
  upload : String → Int
  download : String → Int
  observedAt : Int

/-- One runtime: its users, and the readings after the zero baseline. -/
structure Sampling where
  users : List String
  runtimeID : String
  startedAt : Int
  baselineAt : Int
  periodic : List Reading
  last : Reading

namespace Sampling

variable (R : Sampling)

def tracker : Tracker := newTracker R.users R.runtimeID R.startedAt

/-- The zero baseline. -/
def zero : Reading := ⟨fun _ => 0, fun _ => 0, R.baselineAt⟩

/-- All readings in the order they are taken. -/
def readings : List Reading := R.zero :: (R.periodic ++ [R.last])

/-- The sample of a reading, periodic or final. -/
def sample (r : Reading) (final : Bool) : List Counter :=
  (R.tracker.counters r.upload r.download r.observedAt).map fun c => { c with final }

/-- The samples before the final one: the zero baseline and the periodic samples. -/
def earlier : List (List Counter) := R.sample R.zero false :: R.periodic.map (R.sample · false)

def finalCounters : List Counter := R.sample R.last true

def samples : List (List Counter) := R.earlier ++ [R.finalCounters]

/-- Later readings are no earlier and show no fewer bytes. -/
def Later (a b : Reading) : Prop :=
  a.observedAt ≤ b.observedAt ∧ ∀ u ∈ R.tracker.userIDs,
    a.upload u ≤ b.upload u ∧ a.download u ≤ b.download u

/-- The clock is a nondecreasing number of milliseconds, and the counters of a user never
decrease and stay below `2^63` together. -/
structure Regular : Prop where
  runtimeID_ne : R.runtimeID ≠ ""
  started : 0 ≤ R.startedAt ∧ R.startedAt ≤ R.baselineAt
  ordered : R.readings.Pairwise R.Later
  bounded : ∀ r ∈ R.readings, r.observedAt ≤ maxSafeInteger ∧
    ∀ u ∈ R.tracker.userIDs, r.upload u + r.download u ≤ maxInt64

/-- Two readings of one millisecond show the same counters. -/
def SameInstant (a b : Reading) : Prop :=
  a.observedAt = b.observedAt → ∀ u ∈ R.tracker.userIDs,
    a.upload u = b.upload u ∧ a.download u = b.download u

/-- The users were not sampled by this runtime before, nor by another after its start. -/
def Fresh (streamID : String) (s : Store) : Prop :=
  ∀ u ∈ R.tracker.userIDs, ∀ o, s.cursors.get? (cursorID streamID u) = some o →
    o.runtimeID ≠ R.runtimeID ∧ o.observedAt ≤ R.startedAt

/-- The store shows a reading as the last one of every user. -/
def Shows (streamID : String) (s : Store) (r : Reading) (closed : Bool) : Prop :=
  ∀ u ∈ R.tracker.userIDs, s.cursors.get? (cursorID streamID u) =
    some ⟨R.runtimeID, r.upload u, r.download u, r.observedAt, closed⟩

/-! ## One step -/

/-- A reading as this runtime can take it. -/
structure Valid (r : Reading) : Prop where
  started : R.startedAt ≤ r.observedAt
  observed : r.observedAt ≤ maxSafeInteger
  upload : ∀ u ∈ R.tracker.userIDs, 0 ≤ r.upload u
  download : ∀ u ∈ R.tracker.userIDs, 0 ≤ r.download u
  bounded : ∀ u ∈ R.tracker.userIDs, r.upload u + r.download u ≤ maxInt64

variable {R}

theorem mem_userIDs {users : List String} {runtimeID u : String} {startedAt : Int} :
    u ∈ (newTracker users runtimeID startedAt).userIDs ↔ u ∈ users ∧ u ≠ "" := by
  simp [newTracker, (List.perm_insertionSort _ _).mem_iff]

theorem nodup_userIDs (users : List String) (runtimeID : String) (startedAt : Int) :
    (newTracker users runtimeID startedAt).userIDs.Nodup :=
  (List.perm_insertionSort _ _).nodup_iff.2 (List.nodup_dedup _)

theorem mem_sample {r : Reading} {final : Bool} {c : Counter} :
    c ∈ R.sample r final ↔ ∃ u ∈ R.tracker.userIDs, c =
      ⟨u, R.runtimeID, r.upload u, r.download u, r.observedAt, R.startedAt, final⟩ := by
  simp only [sample, Tracker.counters, List.map_map, List.mem_map, Function.comp_apply, eq_comm]
  rfl

theorem nodup_sample (r : Reading) (final : Bool) :
    ((R.sample r final).map (·.userID)).Nodup := by
  have : (R.sample r final).map (·.userID) = R.tracker.userIDs := by
    simp [sample, Tracker.counters, List.map_map, Function.comp_def]
  rw [this]
  exact nodup_userIDs _ _ _

theorem Valid.not_badCounter {r : Reading} (h : R.Valid r) (hR : R.Regular) {final : Bool} :
    ∀ c ∈ R.sample r final, ¬ badCounter [] c := by
  intro c hc
  obtain ⟨u, hu, rfl⟩ := mem_sample.1 hc
  have hne : u ≠ "" := (mem_userIDs.1 hu).2
  have := h.upload u hu
  have := h.download u hu
  have := h.started
  have := h.observed
  have := hR.started
  simp only [badCounter, hne, hR.runtimeID_ne, List.not_mem_nil, or_false, false_or]
  omega

/-- A counter is compared with an earlier one of its runtime: it is accepted unless it shows
more bytes in the same millisecond. -/
theorem meterCounter_same_runtime {o : CursorRow} {c : Counter} (hrun : o.runtimeID = c.runtimeID)
    (hclosed : o.closed → c.final) (hat : o.observedAt ≤ c.observedAt)
    (hup : o.upload ≤ c.upload) (hdown : o.download ≤ c.download)
    (h0 : 0 ≤ o.upload ∧ 0 ≤ o.download) (hmax : c.upload + c.download ≤ maxInt64) :
    (∃ r, meterCounter (some o) c = .ok r) ↔
      (o.observedAt = c.observedAt → o.upload = c.upload ∧ o.download = c.download) := by
  have hst : ¬ stale (some o) c := by
    rintro ⟨o', ho', hc, -, hf⟩
    obtain rfl : o = o' := by simpa using ho'
    exact hf (hclosed hc)
  constructor
  · rintro ⟨r, hr⟩ heq
    rcases meterCounter_cases hr with ⟨h, -⟩ | ⟨h, -⟩ | ⟨o', ho', -, -, -, -, -, h⟩ |
      ⟨o', _, _, ho', hne, -⟩
    · cases h
    · exact absurd h hst
    · obtain rfl : o = o' := by simpa using ho'
      rcases h with ⟨h1, h2, -⟩ | ⟨-, hlt, -⟩ <;> omega
    · obtain rfl : o = o' := by simpa using ho'
      exact absurd hrun hne
  · intro h
    have hclosed' : ¬ (o.closed ∧ o.runtimeID = c.runtimeID ∧ ¬ c.final) :=
      fun ⟨h1, _, h2⟩ => h2 (hclosed h1)
    have hjump : ¬ (c.observedAt = o.observedAt ∧
        (c.upload - o.upload ≠ 0 ∨ c.download - o.download ≠ 0) ∨
        c.upload - o.upload > maxInt64 - (c.download - o.download)) := by
      rintro (⟨heq, hne⟩ | hbig)
      · have := h heq.symm; omega
      · omega
    simp only [meterCounter, if_neg hclosed', if_neg (not_lt.2 hat), if_pos hrun,
      if_neg (not_or.2 ⟨not_lt.2 hup, not_lt.2 hdown⟩), if_neg hjump]
    split_ifs <;> exact ⟨_, rfl⟩

theorem Shows.finalSample_ok_iff {streamID : String} {s : Store} {a b : Reading} {final : Bool}
    (hs : R.Shows streamID s a false) (hR : R.Regular) (ha : R.Valid a) (hb : R.Valid b)
    (hab : R.Later a b) (hworks : Works streamID s (R.sample b final)) :
    (∃ s', finalSample streamID s (R.sample b final) = .ok s') ↔ R.SameInstant a b := by
  have hmeter : ∀ u ∈ R.tracker.userIDs,
      ((∃ r, meterCounter (s.cursors.get? (cursorID streamID u))
          ⟨u, R.runtimeID, b.upload u, b.download u, b.observedAt, R.startedAt, final⟩ = .ok r) ↔
        (a.observedAt = b.observedAt → a.upload u = b.upload u ∧ a.download u = b.download u)) := by
    intro u hu
    rw [hs u hu]
    exact meterCounter_same_runtime rfl (by simp) hab.1 (hab.2 u hu).1 (hab.2 u hu).2
      ⟨ha.upload u hu, ha.download u hu⟩ (hb.bounded u hu)
  constructor
  · rintro ⟨s', hs'⟩ heq u hu
    obtain ⟨r, hr, -⟩ := finalSample_cursors hs' _ (mem_sample.2 ⟨u, hu, rfl⟩)
    exact (hmeter u hu).1 ⟨r, hr⟩ heq
  · intro hsame
    refine finalSample_ok R.runtimeID ?_ (hb.not_badCounter hR) (nodup_sample b final)
      hworks ?_
    · intro c hc
      obtain ⟨u, -, rfl⟩ := mem_sample.1 hc
      rfl
    · intro c hc
      obtain ⟨u, hu, rfl⟩ := mem_sample.1 hc
      exact (hmeter u hu).2 fun heq => hsame heq u hu

/-- An accepted sample is what the store shows next, if it is not stale. -/
theorem shows_of_finalSample {streamID : String} {s s' : Store} {b : Reading} {final : Bool}
    (hopen : ∀ u ∈ R.tracker.userIDs, ∀ o, s.cursors.get? (cursorID streamID u) = some o →
      o.runtimeID = R.runtimeID → o.closed → final)
    (h : finalSample streamID s (R.sample b final) = .ok s') : R.Shows streamID s' b final := by
  intro u hu
  obtain ⟨r, hr, hget⟩ := finalSample_cursors h _ (mem_sample.2 ⟨u, hu, rfl⟩)
  have hsome : r.isSome := by
    rw [isSome_iff_not_stale hr]
    rintro ⟨o, ho, hclosed, hrun, hnot⟩
    exact hnot (hopen u hu o (by simpa using ho) hrun hclosed)
  rw [hget, if_pos hsome]
  rfl

theorem Shows.next {streamID : String} {s s' : Store} {a b : Reading} {final : Bool}
    (hs : R.Shows streamID s a false) (h : finalSample streamID s (R.sample b final) = .ok s') :
    R.Shows streamID s' b final := by
  refine shows_of_finalSample (fun u hu o ho _ hclosed => ?_) h
  obtain rfl : _ = o := by simpa [hs u hu] using ho
  cases hclosed

/-- A runtime's zero baseline is always accepted. -/
theorem Fresh.baseline {streamID : String} {s : Store} (hs : R.Fresh streamID s) (hR : R.Regular)
    (hzero : R.Valid R.zero) (hworks : Works streamID s (R.sample R.zero false)) :
    ∃ s', finalSample streamID s (R.sample R.zero false) = .ok s' ∧
      R.Shows streamID s' R.zero false := by
  obtain ⟨s', hs'⟩ : ∃ s', finalSample streamID s (R.sample R.zero false) = .ok s' := by
    refine finalSample_ok R.runtimeID ?_ (hzero.not_badCounter hR)
      (nodup_sample _ _) hworks ?_
    · intro c hc
      obtain ⟨u, -, rfl⟩ := mem_sample.1 hc
      rfl
    · intro c hc
      obtain ⟨u, hu, rfl⟩ := mem_sample.1 hc
      cases ho : s.cursors.get? (cursorID streamID u) with
      | none => exact ⟨some [], by simp [meterCounter, managedInitialDelta, zero]⟩
      | some o =>
        obtain ⟨hne, hle⟩ := hs u hu o ho
        have hclock : ¬ R.zero.observedAt < o.observedAt := not_lt.2 (hle.trans hR.started.2)
        refine ⟨some (gapOf (some o)
          ⟨u, R.runtimeID, 0, 0, R.zero.observedAt, R.startedAt, false⟩ ++ []), ?_⟩
        have hfirst (incomplete : Bool) : managedInitialDelta
            ⟨u, R.runtimeID, 0, 0, R.zero.observedAt, R.startedAt, false⟩ incomplete = .ok [] := by
          simp [managedInitialDelta]
        simp only [meterCounter, zero] at hclock hfirst ⊢
        simp only [hne, false_and, and_false, if_false, if_neg hclock, hfirst, gapOf, ne_eq,
          not_false_eq_true, true_and]
        rfl
  refine ⟨s', hs', shows_of_finalSample (fun u hu o ho hrun => ?_) hs'⟩
  exact absurd hrun (hs u hu o ho).1

/-! ## The whole runtime -/

/-- Record samples one after the other, up to the first one that is refused. -/
def recordAll (streamID : String) (s : Store) (samples : List (List Counter)) :
    Except StoreError Store :=
  samples.foldlM (finalSample streamID) s

/-- The database works and the outbox has room for every sample that is reached. -/
def DatabaseWorks (streamID : String) : Store → List (List Counter) → Prop
  | _, [] => True
  | s, c :: cs =>
    match finalSample streamID s c with
    | .ok s' => DatabaseWorks streamID s' cs
    | .error e => e = .counterRegression

instance DatabaseWorks.decidable (streamID : String) :
    (s : Store) → (cs : List (List Counter)) → Decidable (DatabaseWorks streamID s cs)
  | _, [] => isTrue trivial
  | s, c :: cs => by
    unfold DatabaseWorks
    split
    · exact DatabaseWorks.decidable streamID _ cs
    · infer_instance

theorem DatabaseWorks.head {streamID : String} {s : Store} {c : List Counter}
    {cs : List (List Counter)} (h : DatabaseWorks streamID s (c :: cs)) : Works streamID s c := by
  unfold DatabaseWorks at h
  unfold Works
  split <;> simp_all

theorem DatabaseWorks.tail {streamID : String} {s s' : Store} {c : List Counter}
    {cs : List (List Counter)} (h : DatabaseWorks streamID s (c :: cs))
    (hs' : finalSample streamID s c = .ok s') : DatabaseWorks streamID s' cs := by
  simpa [DatabaseWorks, hs'] using h

theorem DatabaseWorks.append_left {streamID : String} {s : Store} {xs ys : List (List Counter)}
    (h : DatabaseWorks streamID s (xs ++ ys)) : DatabaseWorks streamID s xs := by
  induction xs generalizing s with
  | nil => trivial
  | cons c xs ih =>
    rw [List.cons_append] at h
    have hhead := h.head
    unfold DatabaseWorks
    unfold Works at hhead
    split
    · next hs' => exact ih (h.tail hs')
    · next he => simpa [he] using hhead

theorem DatabaseWorks.append_right {streamID : String} {s s' : Store}
    {xs ys : List (List Counter)} (h : DatabaseWorks streamID s (xs ++ ys))
    (hs' : recordAll streamID s xs = .ok s') : DatabaseWorks streamID s' ys := by
  induction xs generalizing s with
  | nil =>
    simp only [recordAll, List.foldlM_nil, pure_eq_ok] at hs'
    exact hs' ▸ h
  | cons c xs ih =>
    simp only [recordAll, List.foldlM_cons, bind_eq_ok] at hs'
    obtain ⟨t, ht, hrest⟩ := hs'
    exact ih (h.tail ht) hrest

/-- From a store that shows one reading, the later periodic samples and the final sample are all
accepted when no two consecutive readings of one millisecond differ. -/
theorem Shows.recordAll_iff {streamID : String} {s : Store} {a : Reading} (hR : R.Regular)
    (hs : R.Shows streamID s a false) {rs : List Reading} {last : Reading}
    (hvalid : ∀ r ∈ a :: (rs ++ [last]), R.Valid r)
    (hlater : (a :: (rs ++ [last])).Pairwise R.Later)
    (hworks : DatabaseWorks streamID s (rs.map (R.sample · false) ++ [R.sample last true])) :
    (∃ s', recordAll streamID s (rs.map (R.sample · false) ++ [R.sample last true]) = .ok s') ↔
      (a :: (rs ++ [last])).IsChain R.SameInstant := by
  induction rs generalizing s a with
  | nil =>
    have hstep := hs.finalSample_ok_iff hR (hvalid a (by simp)) (hvalid last (by simp))
      (by simpa using hlater) hworks.head
    simpa [recordAll] using hstep
  | cons r rs ih =>
    have hpair : R.Later a r := (List.pairwise_cons.1 hlater).1 r (by simp)
    have hstep := hs.finalSample_ok_iff hR (hvalid a (by simp)) (hvalid r (by simp)) hpair
      hworks.head
    rw [List.cons_append, List.isChain_cons_cons, ← hstep]
    simp only [List.map_cons, List.cons_append, recordAll, List.foldlM_cons, bind_eq_ok]
    constructor
    · rintro ⟨s', s₁, hs₁, hrest⟩
      refine ⟨⟨s₁, hs₁⟩, (ih (hs.next hs₁) (fun x hx => hvalid x (List.mem_cons_of_mem a hx))
        (List.pairwise_cons.1 hlater).2 (hworks.tail hs₁)).1 ⟨s', hrest⟩⟩
    · rintro ⟨⟨s₁, hs₁⟩, hchain⟩
      obtain ⟨s', hrest⟩ := (ih (hs.next hs₁) (fun x hx => hvalid x (List.mem_cons_of_mem a hx))
        (List.pairwise_cons.1 hlater).2 (hworks.tail hs₁)).2 hchain
      exact ⟨s', s₁, hs₁, hrest⟩

theorem Regular.valid (hR : R.Regular) : ∀ r ∈ R.readings, R.Valid r := by
  intro r hr
  have hlater : r = R.zero ∨ R.Later R.zero r := by
    rcases List.mem_cons.1 hr with rfl | hr'
    · exact .inl rfl
    · exact .inr ((List.pairwise_cons.1 hR.ordered).1 r hr')
  have hbound := hR.bounded r hr
  rcases hlater with rfl | hlater
  · exact ⟨hR.started.2, hbound.1, fun _ _ => le_refl _, fun _ _ => le_refl _, hbound.2⟩
  · exact ⟨hR.started.2.trans hlater.1, hbound.1, fun u hu => (hlater.2 u hu).1,
      fun u hu => (hlater.2 u hu).2, hbound.2⟩

/-! ## The final sample and its retries -/

variable (R)

/-- No final sample is wedged: every sample of the runtime is accepted, and when the final one
had to be queued, before or after it was recorded, one retry empties the queue. -/
def NeverWedged (streamID : String) (s : Store) : Prop :=
  (∃ s', recordAll streamID s R.samples = .ok s') ∧
  ∀ m : Machine Store, m.pendingFinal = [R.finalCounters] →
    (recordAll streamID s R.earlier = .ok m.usage ∨ recordAll streamID s R.samples = .ok m.usage) →
    ∀ answer rest, answer.stored = true →
      ∃ usage, retryFinal (some (finalSample streamID)) m (answer :: rest) =
        ({ m with usage, pendingFinal := [] }, some (none, rest))

variable {R}

theorem retryFinal_of_ok {streamID : String} {m : Machine Store} {sample : List Counter}
    {usage : Store} {runtimeID : String} (hrun : ∀ c ∈ sample, c.runtimeID = runtimeID)
    (hm : m.pendingFinal = [sample]) (h : finalSample streamID m.usage sample = .ok usage)
    {answer : Answer} (hstored : answer.stored = true) (rest : List Answer) :
    retryFinal (some (finalSample streamID)) m (answer :: rest) =
      ({ m with usage, pendingFinal := [] }, some (none, rest)) := by
  cases sample with
  | nil => simp [retryFinal, retryFinalFrom, persist, hm, hstored, h]
  | cons c cs =>
    simp [retryFinal, retryFinalFrom, persist, hm, hstored, h, acknowledgeFinalSample]

theorem retryFinal_of_error {streamID : String} {m : Machine Store} {sample : List Counter}
    {e : StoreError} (hm : m.pendingFinal = [sample])
    (h : finalSample streamID m.usage sample = .error e) (answers : List Answer) :
    ((retryFinal (some (finalSample streamID))).run m answers).1 = m := by
  cases answers with
  | nil => simp [Prog.run, retryFinal, retryFinalFrom, persist, hm]
  | cons answer rest =>
    by_cases hstored : answer.stored <;>
      simp [Prog.run, retryFinal, retryFinalFrom, persist, hm, hstored, h]

theorem Shows.retry_ok {streamID : String} {s : Store} {b : Reading} (hs : R.Shows streamID s b true)
    (hR : R.Regular) (hb : R.Valid b) (hworks : Works streamID s (R.sample b true)) :
    ∃ s', finalSample streamID s (R.sample b true) = .ok s' := by
  refine finalSample_ok R.runtimeID ?_ (hb.not_badCounter hR) (nodup_sample b true)
    hworks ?_
  · intro c hc
    obtain ⟨u, -, rfl⟩ := mem_sample.1 hc
    rfl
  · intro c hc
    obtain ⟨u, hu, rfl⟩ := mem_sample.1 hc
    rw [hs u hu]
    exact (meterCounter_same_runtime rfl (by simp) (le_refl _) (le_refl _) (le_refl _)
      ⟨hb.upload u hu, hb.download u hu⟩ (hb.bounded u hu)).2 fun _ => ⟨rfl, rfl⟩

theorem recordAll_append {streamID : String} {s s' : Store} {xs : List (List Counter)}
    {c : List Counter} : recordAll streamID s (xs ++ [c]) = .ok s' ↔
      ∃ t, recordAll streamID s xs = .ok t ∧ finalSample streamID t c = .ok s' := by
  simp [recordAll, List.foldlM_append]

/-- The samples of a runtime are all accepted, and its final sample is never wedged, exactly when
consecutive readings of one millisecond show the same counters. -/
theorem neverWedged_iff (hR : R.Regular) {streamID : String} {s : Store}
    (hfresh : R.Fresh streamID s)
    (hworks : DatabaseWorks streamID s (R.samples ++ [R.finalCounters])) :
    R.NeverWedged streamID s ↔ R.readings.IsChain R.SameInstant := by
  have hvalid := hR.valid
  have hlast : R.Valid R.last := hvalid R.last (by simp [readings])
  obtain ⟨s₁, hs₁, hshow₁⟩ := hfresh.baseline hR (hvalid R.zero (by simp [readings]))
    hworks.head
  have hsamples : R.samples = R.sample R.zero false ::
      (R.periodic.map (R.sample · false) ++ [R.sample R.last true]) := rfl
  have hworks₁ : DatabaseWorks streamID s₁
      (R.periodic.map (R.sample · false) ++ [R.sample R.last true]) :=
    hworks.append_left.tail hs₁
  have hall : (∃ s', recordAll streamID s R.samples = .ok s') ↔
      R.readings.IsChain R.SameInstant := by
    rw [readings, ← hshow₁.recordAll_iff hR hvalid hR.ordered hworks₁, hsamples]
    simp only [recordAll, List.foldlM_cons, bind_eq_ok]
    constructor
    · rintro ⟨s', t, ht, hrest⟩
      obtain rfl : s₁ = t := Except.ok.inj (hs₁.symm.trans ht)
      exact ⟨s', hrest⟩
    · rintro ⟨s', hrest⟩; exact ⟨s', s₁, hs₁, hrest⟩
  refine ⟨fun h => hall.1 h.1, fun hchain => ⟨hall.2 hchain, fun m hm husage answer rest hans => ?_⟩⟩
  have hrun : ∀ c ∈ R.finalCounters, c.runtimeID = R.runtimeID := by
    intro c hc
    obtain ⟨u, -, rfl⟩ := mem_sample.1 hc
    rfl
  obtain ⟨s₂, hs₂⟩ := hall.2 hchain
  obtain ⟨t, ht, hfinal⟩ := recordAll_append.1 hs₂
  rcases husage with husage | husage
  · -- the queued sample was not recorded yet
    obtain rfl : t = m.usage := Except.ok.inj (ht.symm.trans husage)
    exact ⟨s₂, retryFinal_of_ok hrun hm hfinal hans rest⟩
  · -- the queued sample was recorded, only its acknowledgement was lost
    obtain ⟨t', ht', hfinal'⟩ := recordAll_append.1 husage
    have hshow : R.Shows streamID m.usage R.last true := by
      refine shows_of_finalSample (fun u hu o ho hrun' hclosed => rfl) hfinal'
    obtain ⟨usage, husage'⟩ := hshow.retry_ok hR hlast
      (hworks.append_right husage).head
    exact ⟨usage, retryFinal_of_ok hrun hm husage' hans rest⟩

/-- A runtime whose last periodic sample and final sample fall into one millisecond, with traffic
between them. -/
def burst : Sampling where
  users := ["u"]
  runtimeID := "embedded-1"
  startedAt := 1
  baselineAt := 1
  periodic := [⟨fun _ => 100, fun _ => 0, 2⟩]
  last := ⟨fun _ => 150, fun _ => 0, 2⟩

/-- A runtime whose final sample is taken later. -/
def steady : Sampling := { burst with last := ⟨fun _ => 150, fun _ => 0, 3⟩ }

theorem burst_regular : burst.Regular where
  runtimeID_ne := by decide
  started := by decide
  ordered := by simp [readings, burst, zero, Later]
  bounded := by simp [readings, burst, zero, maxSafeInteger, maxInt64]

theorem steady_regular : steady.Regular where
  runtimeID_ne := by decide
  started := by decide
  ordered := by simp [readings, steady, burst, zero, Later]
  bounded := by simp [readings, steady, burst, zero, maxSafeInteger, maxInt64]

/-- The final sample of `burst` is refused, and no retry takes it off the queue. -/
theorem burst_wedged :
    burst.Regular ∧ burst.Fresh "usage-1" .empty ∧
    DatabaseWorks "usage-1" .empty (burst.samples ++ [burst.finalCounters]) ∧
    ¬ burst.NeverWedged "usage-1" .empty ∧
    ∃ s, recordAll "usage-1" .empty burst.earlier = .ok s ∧
      finalSample "usage-1" s burst.finalCounters = .error .counterRegression ∧
      ∀ m : Machine Store, m.usage = s → m.pendingFinal = [burst.finalCounters] → ∀ answers,
        ((retryFinal (some (finalSample "usage-1"))).run m answers).1 = m := by
  have hworks : DatabaseWorks "usage-1" .empty (burst.samples ++ [burst.finalCounters]) := by
    decide +kernel
  have hfresh : burst.Fresh "usage-1" .empty := by intro u _ o ho; cases ho
  have hearlier : (recordAll "usage-1" .empty burst.earlier).isOk = true := by decide +kernel
  have hlast : (recordAll "usage-1" .empty burst.earlier >>= fun s =>
      finalSample "usage-1" s burst.finalCounters) = .error .counterRegression := by decide +kernel
  obtain ⟨s, hs⟩ : ∃ s, recordAll "usage-1" .empty burst.earlier = .ok s := by
    cases h : recordAll "usage-1" .empty burst.earlier with
    | ok s => exact ⟨s, rfl⟩
    | error e => simp [h, Except.isOk, Except.toBool] at hearlier
  have hfinal : finalSample "usage-1" s burst.finalCounters = .error .counterRegression := by
    simpa [hs] using hlast
  refine ⟨burst_regular, hfresh, hworks, ?_, s, hs, hfinal, fun m hm hq answers => ?_⟩
  · rintro ⟨⟨s', hs'⟩, -⟩
    obtain ⟨t, ht, hok⟩ := recordAll_append.1 hs'
    obtain rfl : s = t := Except.ok.inj (hs.symm.trans ht)
    rw [hfinal] at hok
    cases hok
  · exact retryFinal_of_error hq (hm ▸ hfinal) answers

theorem steady_neverWedged : steady.NeverWedged "usage-1" .empty :=
  (neverWedged_iff steady_regular (fun u _ o ho => by cases ho) (by decide +kernel)).2 (by
    simp [readings, steady, burst, zero, SameInstant, tracker, mem_userIDs])

end Sampling

end Bifurcation.Daemon
