import Bifurcation.Daemon.Batching
import Bifurcation.Daemon.Outbox
import Bifurcation.Panel.Usage

/-!
# The panel accepts what the daemon builds

`RecordSample` on one side, the checks of `reportUsage` on the other. The daemon bounds the work
of a batch by a formula over lengths, the panel counts calendar buckets.

**Projections.** An interval of at most a day touches at most two minutes more than it is long,
two days and two months. This is the cost the daemon reckons with, whatever the alignment.

**Bytes.** A delta has at most `2^63 - 1` bytes in both directions together, because the sampling
loop refuses any other, and a piece has at most the bytes of its delta.

Main result: `recordSample_acceptable`.
-/

namespace Bifurcation.Delivery

open Daemon Panel

/-! ## The cost of a piece -/

/-- The panel projects a piece to at most as many buckets as it costs. -/
theorem projectionCount_le {piece : UsageDelta} (hstart : 0 ≤ piece.startUnixMs)
    (hlt : piece.startUnixMs < piece.endUnixMs)
    (hday : piece.endUnixMs - piece.startUnixMs ≤ dayMilliseconds) (hup : 0 ≤ piece.uploadBytes)
    (now : Int) : (projectionCount now piece : Int) ≤ cost piece := by
  obtain ⟨starts, hsplit⟩ := splitBytes_spec hstart hlt .minute nofun
  obtain ⟨minutes, hminutes, hspec⟩ := hsplit piece.uploadBytes hup
  have hfilter : ∀ grain, projected now grain (rollupMinutes minutes grain) ≤
      (rollupMinutes minutes grain).length := fun grain => List.length_filter_le _ _
  have hday' := length_rollupMinutes hspec hstart hday (show Grain.day ≠ .minute from nofun)
  have hmonth' := length_rollupMinutes hspec hstart hday (show Grain.month ≠ .minute from nofun)
  have hminute' : ((rollupMinutes minutes .minute).length : Int) * 60000 ≤
      piece.endUnixMs - piece.startUnixMs + 119998 := by
    obtain ⟨first, hfirst, hcovers⟩ := hspec.covers
    have hlen : (rollupMinutes minutes .minute).length = starts.length := by
      show minutes.length = _
      rw [← List.length_map Share.start, hspec.starts, List.length_map]
    have hcount := hcovers.length_minutes
    obtain rfl := Option.some.inj hfirst
    unfold sizedStart at hcount
    rw [hlen]
    omega
  have hminute := hfilter .minute
  have hdays := hfilter .day
  have hmonths := hfilter .month
  simp only [projectionCount, minutesOf, grains, hminutes, Option.getD_some, List.map_cons, List.map_nil,
    List.sum_cons, List.sum_nil, cost]
  push_cast
  omega

/-! ## Deltas -/

/-- A delta the pieces of which the panel accepts. -/
structure Delta.Acceptable (d : Delta) : Prop where
  valid : d.Valid
  bytes : d.upload + d.download ≤ maxInt64

/-- The cursors were left by counters that passed the checks. -/
def CursorsValid (cursors : Table String CursorRow) : Prop :=
  ∀ id row, cursors.get? id = some row →
    0 ≤ row.observedAt ∧ row.observedAt ≤ maxSafeInteger ∧ 0 ≤ row.upload ∧ 0 ≤ row.download

theorem managedInitialDelta_acceptable {seen : List String} {c : Counter} {incomplete : Bool}
    {ds : List Delta} (hgood : ¬ badCounter seen c)
    (h : managedInitialDelta c incomplete = .ok ds) : ∀ d ∈ ds, Delta.Acceptable d := by
  unfold badCounter at hgood
  unfold managedInitialDelta at h
  by_cases hzero : c.startedAt = 0 ∨ c.upload = 0 ∧ c.download = 0
  · rw [if_pos hzero] at h
    cases h
    simp
  · rw [if_neg hzero] at h
    by_cases hbad : c.startedAt ≥ c.observedAt ∨ c.upload > maxInt64 - c.download
    · rw [if_pos hbad] at h
      cases h
    · rw [if_neg hbad] at h
      cases h
      intro d hd
      obtain rfl := List.mem_singleton.1 hd
      constructor
      · constructor <;> dsimp only <;> omega
      · dsimp only
        omega

/-- What one counter contributes. -/
theorem meterCounter_acceptable {seen : List String} {old : Option CursorRow} {c : Counter}
    {r : Option (List Delta)} (hgood : ¬ badCounter seen c)
    (hold : ∀ row, old = some row → 0 ≤ row.observedAt ∧ 0 ≤ row.upload ∧ 0 ≤ row.download)
    (h : meterCounter old c = .ok r) : ∀ d ∈ r.getD [], Delta.Acceptable d := by
  have hgood' := hgood
  unfold badCounter at hgood'
  cases old with
  | none =>
    simp only [meterCounter, bind_eq_ok, pure_eq_ok] at h
    obtain ⟨first, hfirst, rfl⟩ := h
    exact managedInitialDelta_acceptable hgood hfirst
  | some o =>
    obtain ⟨hobserved, hupload, hdownload⟩ := hold o rfl
    simp only [meterCounter] at h
    split_ifs at h with hclosed hstale hclock hrun hreg hjump hbytes hgap
    · cases h
      simp
    · cases h
      intro d hd
      obtain rfl := List.mem_singleton.1 hd
      rw [not_or] at hjump
      constructor
      · constructor <;> dsimp only <;> omega
      · dsimp only
        omega
    · cases h
      simp
    · -- The gap before a new runtime, and what it counted since.
      simp only [bind_eq_ok, pure_eq_ok] at h
      obtain ⟨first, hfirst, rfl⟩ := h
      intro d hd
      rcases List.mem_append.1 hd with hd | hd
      · obtain rfl := List.mem_singleton.1 hd
        have hend : gapEnd c ≤ maxSafeInteger := by
          unfold gapEnd
          by_cases hstarted : c.startedAt > 0
          · rw [if_pos hstarted]
            omega
          · rw [if_neg hstarted]
            omega
        have hmax : (0 : Int) ≤ maxInt64 := by decide
        refine ⟨⟨hobserved, hgap.2, hend, ⟨le_rfl, hmax⟩, le_rfl, hmax⟩, ?_⟩
        show (0 : Int) + 0 ≤ maxInt64
        omega
      · exact managedInitialDelta_acceptable hgood hfirst d hd
    · simp only [bind_eq_ok, pure_eq_ok, List.nil_append] at h
      obtain ⟨first, hfirst, rfl⟩ := h
      exact managedInitialDelta_acceptable hgood hfirst

/-! ## The sampling loop -/

/-- What the loop has gathered is acceptable. -/
structure Gathered (done : List Counter) (tx : SampleTx) : Prop where
  cursors : CursorsValid tx.cursors
  deltas : ∀ d ∈ tx.deltas, Delta.Acceptable d
  runtime : done ≠ [] → tx.runtimeID ≠ "" ∧ ∃ c ∈ done, c.runtimeID = tx.runtimeID
  empty : done = [] → tx.deltas = []

theorem Gathered.step {streamID : String} {done : List Counter} {tx tx' : SampleTx} {c : Counter}
    (h : Gathered done tx) (hstep : recordCounter streamID tx c = .ok tx') :
    Gathered (done ++ [c]) tx' := by
  obtain ⟨hgood, -, r, hr, rfl⟩ := recordCounter_spec hstep
  have hgood' := hgood
  unfold badCounter at hgood'
  refine ⟨fun id row hrow => ?_, fun d hd => ?_, fun _ => ⟨?_, c, by simp, rfl⟩, by simp⟩
  · by_cases hsome : r.isSome
    · rw [if_pos hsome, Table.get?_set] at hrow
      by_cases hid : id = cursorID streamID c.userID
      · rw [if_pos hid] at hrow
        obtain rfl := Option.some.inj hrow
        unfold cursorOf
        dsimp only
        omega
      · rw [if_neg hid] at hrow
        exact h.cursors id row hrow
    · rw [if_neg hsome] at hrow
      exact h.cursors id row hrow
  · rcases List.mem_append.1 hd with hd | hd
    · exact h.deltas d hd
    · refine meterCounter_acceptable hgood (fun row hrow => ?_) hr d hd
      have hvalid := h.cursors _ row hrow
      omega
  · exact fun hempty => hgood' (.inr (.inl hempty))

theorem recordCounters_gathered {streamID : String} {cursors : Table String CursorRow}
    {counters : List Counter} {tx : SampleTx} (hcursors : CursorsValid cursors)
    (h : recordCounters streamID cursors counters = .ok tx) : Gathered counters tx :=
  foldlM_induction_prefix (I := fun done tx => Gathered done tx)
    (fun _ _ _ _ hdone hstep => hdone.step hstep) [] h
    ⟨hcursors, by simp, fun hne => absurd rfl hne, fun _ => rfl⟩

/-- The cursors stay valid. -/
theorem cursorsValid_run (events : List UsageEvent) : CursorsValid (Store.run events).cursors := by
  have hstep : ∀ s : Store, CursorsValid s.cursors → ∀ event, CursorsValid (s.step event).cursors := by
    intro s hs event
    unfold Store.step
    cases hcall : s.call event with
    | error e => exact hs
    | ok s' =>
      cases event with
      | recordSample streamID counters =>
        cases hsample : recordSample streamID counters s with
        | error e => simp [Store.call, hsample, Except.map] at hcall
        | ok answer =>
          simp only [Store.call, hsample, Except.map, Except.ok.injEq] at hcall
          subst hcall
          obtain ⟨⟨tx, htx, hcursors⟩, -⟩ := recordSample_spec hsample
          show CursorsValid answer.2.cursors
          rw [hcursors]
          exact (recordCounters_gathered hs htx).cursors
      | acknowledgeUsage streamID seq =>
        obtain ⟨st, -, -, -, hcursors, -⟩ := acknowledgeUsage_eq_ok hcall
        show CursorsValid s'.cursors
        rw [hcursors]
        exact hs
      | requireUsageRecovery streamID message =>
        simp only [Store.call, requireUsageRecovery, bind_eq_ok, found_eq_ok, pure_eq_ok] at hcall
        obtain ⟨st, -, rfl⟩ := hcall
        exact hs
  have hrun : ∀ s : Store, CursorsValid s.cursors →
      CursorsValid (events.foldl Store.step s).cursors := by
    induction events with
    | nil => exact fun s hs => hs
    | cons event events ih => exact fun s hs => ih _ (hstep s hs event)
  exact hrun _ fun id row hrow => by cases hrow

/-! ## The batches -/

/-- Every check of the panel on a batch of a stream, and its count of projections. -/
structure PanelAccepts (streamID : String) (row : BatchRow) (message : UsageBatch) : Prop where
  payload : row.payload = message.marshal
  request : isIdentity streamID = true → ∀ installation, checkRequest
    ⟨installation, streamID, row.seq, row.payload, row.payloadHash⟩ = .ok ()
  metadata : checkMetadata message = .ok ()
  deltas : ∀ now, ∀ d ∈ message.deltas, d.endUnixMs ≤ now + 5 * 60000 → checkDelta now d = .ok ()
  projections : ∀ now, (message.deltas.map (projectionCount now)).sum ≤ 20000
  spans : ∀ machineId now db, applyBatch machineId now message db ≠ .error spansTooMany

/-- A piece of an acceptable delta passes the checks. -/
theorem checkDelta_piece {d : Delta} (h : Delta.Acceptable d) {p : UsageDelta} (hp : p ∈ pieces d)
    {now : Int} (hnow : p.endUnixMs ≤ now + 5 * 60000) :
    (0 ≤ p.startUnixMs ∧ p.startUnixMs < p.endUnixMs ∧
      p.endUnixMs - p.startUnixMs ≤ dayMilliseconds ∧ 0 ≤ p.uploadBytes) ∧
    checkDelta now p = .ok () := by
  obtain ⟨-, hlow, hhigh, hlt, hday⟩ := mem_pieces hp
  obtain ⟨-, ⟨hup, hup'⟩, hdown, hdown'⟩ :=
    bytes_piecesFrom h.valid.before h.valid.upload.1 h.valid.download.1 le_rfl hp
  have hbytes := h.bytes
  have hstart := h.valid.start
  have hsafe := h.valid.safe
  refine ⟨⟨by omega, by omega, by omega, hup⟩, ?_⟩
  simp only [checkDelta, check_bind_eq_ok, failIf_eq_ok]
  exact ⟨by omega, by omega, by omega⟩

/-- The rows of a call are those of its messages. -/
theorem exists_of_mem_outboxRows {streamID : String} {seq : Int} {ms : List UsageBatch}
    {x : String × BatchRow} (h : x ∈ outboxRows streamID seq ms) :
    ∃ m ∈ ms, ∃ seq', x.2 = batchRow streamID seq' m := by
  induction ms generalizing seq with
  | nil => cases h
  | cons m ms ih =>
    rcases List.mem_cons.1 h with rfl | h
    · exact ⟨m, List.mem_cons_self, seq, rfl⟩
    · obtain ⟨m', hm', hrow⟩ := ih h
      exact ⟨m', List.mem_cons_of_mem _ hm', hrow⟩

/-- Every message that was appended has at most a mebibyte. -/
theorem appended_size {streamID : String} {nextSeq : Int} {tx out : AppendTx}
    {ms : List UsageBatch} (h : ms.foldlM (appendBatch streamID nextSeq) tx = .ok out) :
    ∀ m ∈ ms, m.marshal.length ≤ 1024 * 1024 := by
  induction ms generalizing tx with
  | nil => simp
  | cons m ms ih =>
    simp only [List.foldlM_cons, bind_eq_ok] at h
    obtain ⟨tx', hm, hrest⟩ := h
    simp only [appendBatch, bind_eq_ok, failIf_eq_ok, not_or, exists_const] at hm
    obtain ⟨-, ⟨hsize, -⟩, -⟩ := hm
    have hlen : (batchRow streamID (nextSeq + tx.index) m).sizeBytes = m.marshal.length := rfl
    rw [hlen] at hsize
    intro m' hm'
    rcases List.mem_cons.1 hm' with rfl | hm'
    · omega
    · exact ih hrest m' hm'

/-- What the messages of a call hold. -/
theorem sampleMessages_spec {streamID : String} {counters : List Counter} {s s' : Store}
    {first : Option Batch} (hcursors : CursorsValid s.cursors)
    (h : recordSample streamID counters s = .ok (first, s')) {m : UsageBatch}
    (hm : m ∈ sampleMessages streamID counters s) :
    m.marshal.length ≤ 1024 * 1024 ∧ m.coreRuntimeId ≠ "" ∧
      (∃ c ∈ counters, c.runtimeID = m.coreRuntimeId) ∧ Packed m.coreRuntimeId m ∧
      ∀ p ∈ m.deltas, ∃ d, Delta.Acceptable d ∧ p ∈ pieces d := by
  simp only [recordSample, bind_eq_ok, pure_eq_ok, Prod.mk.injEq] at h
  obtain ⟨⟨st, streams⟩, -, tx, htx, out, hout, -, -⟩ := h
  have hmsg : sampleMessages streamID counters s = batchDeltas tx.runtimeID tx.deltas := by
    simp [sampleMessages, htx]
  rw [hmsg] at hm
  have hgathered := recordCounters_gathered hcursors htx
  have hpacked := packed_batchDeltas hm
  have hpieces : ∀ p ∈ m.deltas, ∃ d ∈ tx.deltas, p ∈ pieces d := by
    intro p hp
    have hall : p ∈ (batchDeltas tx.runtimeID tx.deltas).flatMap UsageBatch.deltas :=
      List.mem_flatMap.2 ⟨m, hm, hp⟩
    rw [flatMap_batchDeltas] at hall
    exact List.mem_flatMap.1 hall
  -- A message holds a piece, so the loop has read a counter.
  have hne : counters ≠ [] := by
    intro hnil
    obtain ⟨p, hp⟩ := List.exists_mem_of_length_pos hpacked.nonempty
    obtain ⟨d, hd, -⟩ := hpieces p hp
    rw [hgathered.empty hnil] at hd
    cases hd
  obtain ⟨hruntime, hcounter⟩ := hgathered.runtime hne
  rw [← hpacked.runtime] at hruntime hcounter
  refine ⟨appended_size hout m hm, hruntime, hcounter, hpacked.runtime ▸ hpacked, fun p hp => ?_⟩
  obtain ⟨d, hd, hpd⟩ := hpieces p hp
  exact ⟨d, hgathered.deltas d hd, hpd⟩

/-- The hash of a payload has the form the panel checks. -/
theorem isSha256Text_sha256 (payload : Bytes) : isSha256Text (sha256 payload) = true := by
  have hdigit : ∀ n : ℕ, (Sha256.hexDigit n).isDigit || ('a' ≤ Sha256.hexDigit n &&
      Sha256.hexDigit n ≤ 'f') := by
    intro n
    have hall : ∀ k < 16, ("0123456789abcdef".toList.getD k '0').isDigit ||
        ('a' ≤ "0123456789abcdef".toList.getD k '0' &&
          "0123456789abcdef".toList.getD k '0' ≤ 'f') := by decide
    exact hall (n % 16) (Nat.mod_lt _ (by norm_num))
  have hword : ∀ w, ∀ c ∈ Sha256.hexWord w, c.isDigit || ('a' ≤ c && c ≤ 'f') := by
    intro w c hc
    obtain ⟨shift, -, rfl⟩ := List.mem_map.1 hc
    exact hdigit _
  simp only [isSha256Text, Bool.and_eq_true, decide_eq_true_eq, List.all_eq_true]
  constructor
  · rw [sha256, String.length_ofList, List.length_flatMap]
    rfl
  · intro c hc
    rw [sha256, String.toList_ofList] at hc
    obtain ⟨w, -, hcw⟩ := List.mem_flatMap.1 hc
    exact hword w c hcw

/-- **The panel accepts every batch the daemon builds.** In every state the calls of a daemon
reach, and for every sample it records there. -/
theorem recordSample_acceptable (events : List UsageEvent) {streamID : String}
    {counters : List Counter} {first : Option Batch} {s' : Store}
    (hruntime : ∀ c ∈ counters, c.runtimeID.utf8ByteSize ≤ 256)
    (h : recordSample streamID counters (Store.run events) = .ok (first, s')) :
    ∀ x ∈ s'.batches.rows, x ∈ (Store.run events).batches.rows ∨
      ∃ message, PanelAccepts streamID x.2 message := by
  have hcursors := cursorsValid_run events
  have hinv := outboxInv_run events
  obtain ⟨-, hrows, -⟩ := recordSample_spec h
  intro x hx
  have hx' := hx
  rw [hrows] at hx
  rcases List.mem_append.1 hx with hx | hx
  · exact .inl hx
  right
  obtain ⟨m, hm, seq, hrow⟩ := exists_of_mem_outboxRows hx
  obtain ⟨hsize, hne, ⟨c, hc, hid⟩, hpacked, hpieces⟩ := sampleMessages_spec hcursors h hm
  have hpayload : x.2.payload = m.marshal := by rw [hrow]; rfl
  have hprojections : ∀ now, (m.deltas.map (projectionCount now)).sum ≤ 20000 := by
    intro now
    -- The count of every piece is at most its cost.
    have hsum : ∀ ps : List UsageDelta, (∀ p ∈ ps, p ∈ m.deltas) →
        (((ps.map (projectionCount now)).sum : ℕ) : Int) ≤ projections ps := by
      intro ps hps
      induction ps with
      | nil => exact le_rfl
      | cons p ps ih =>
        obtain ⟨d, hd, hpd⟩ := hpieces p (hps p List.mem_cons_self)
        obtain ⟨⟨hstart, hlt, hday, hup⟩, -⟩ :=
          checkDelta_piece hd hpd (show p.endUnixMs ≤ p.endUnixMs + 5 * 60000 by omega)
        have hone := projectionCount_le hstart hlt hday hup now
        have hrest := ih fun q hq => hps q (List.mem_cons_of_mem _ hq)
        rw [projections] at hrest ⊢
        rw [List.map_cons, List.sum_cons, List.map_cons, List.sum_cons, Nat.cast_add]
        omega
    have hcount := hsum m.deltas fun _ hp => hp
    have hbudget := hpacked.projections
    omega
  refine ⟨m, hpayload, fun hidentity installation => ?_, ?_, fun now p hp hnow => ?_, hprojections,
    fun machineId now db hspans => ?_⟩
  · have hafter := (hinv.recordSample h).1
    have hseq : x.2.seq ∈ (rowsOf streamID s').map BatchRow.seq :=
      List.mem_map_of_mem (mem_rowsOf.2 ⟨(mem_outboxRows hx).2, x.1, hx'⟩)
    obtain ⟨⟨hzero, -, hmax⟩, hsequences, -⟩ := hafter.streams streamID
    rw [hsequences, mem_numbers] at hseq
    have hhash := (hafter.rows x hx').hash
    have htext := isSha256Text_sha256 x.2.payload
    simp only [checkRequest, check_bind_eq_ok, failIf_eq_ok, hhash, hpayload] at htext ⊢
    simp only [hidentity, htext, hsize, Bool.true_eq_false, not_false_eq_true, true_and, ne_eq,
      not_true_eq_false, or_false, not_lt, gt_iff_lt, and_true]
    omega
  · have hunits := length_utf16_le m.coreRuntimeId
    have hbytes := hruntime c hc
    rw [hid] at hbytes
    have hlow := hpacked.nonempty
    have hhigh := hpacked.length
    simp only [checkMetadata, failIf_eq_ok, not_or]
    exact ⟨hne, by omega, by omega, by omega⟩
  · obtain ⟨d, hd, hpd⟩ := hpieces p hp
    exact (checkDelta_piece hd hpd hnow).2
  · have hover := applyBatch_spans hspans
    have hcount := hprojections now
    omega

/-- A sample of a core that has run for two days and counted as much as fits. -/
def longSample : Except StoreError (Option Batch × Store) :=
  recordSample "usage-stream-0001" [⟨"alice", "core-1", maxInt64, 0, 200000000, 7, false⟩]
    (Store.run [])

theorem longSample_acceptable : ∃ first s', longSample = .ok (first, s') ∧
    ∀ x ∈ s'.batches.rows, x ∈ (Store.run []).batches.rows ∨
      ∃ message, PanelAccepts "usage-stream-0001" x.2 message := by
  cases h : longSample with
  | error e =>
    have hok : longSample.toOption.isSome = true := by decide +kernel
    rw [h] at hok
    cases hok
  | ok r =>
    refine ⟨r.1, r.2, rfl, recordSample_acceptable [] (fun c hc => ?_) h⟩
    obtain rfl := List.mem_singleton.1 hc
    decide

end Bifurcation.Delivery
