import Bifurcation.Daemon.Metering

/-!
# The outbox

The rows `RecordSample` appends and `AcknowledgeUsage` deletes, next to the two cursors and the
byte counter of their stream; and `UsageQueue` of `internal/state/usage_status.go`, which reads
both.

**Keys.** A row key ends in the digits after its last colon, whatever the stream id contains, and
a cursor key starts with the length of the stream id. So two streams never share a row.

**Representation.** The rows of a stream are, in the order of the table, the sequences after the
committed one. Appending continues them and an acknowledgement drops a front part.

Main result: `outbox_represents`.
-/

namespace Bifurcation.Daemon

/-! ## The queue -/

structure UsageQueueStatus where
  pendingBatches : Int := 0
  oldestEnd : Int := 0
  recoveryIssue : String := ""
deriving DecidableEq

/-- The earliest end of some deltas. -/
def oldestEnd (deltas : List UsageDelta) : Int :=
  deltas.foldl (fun oldest d => if oldest = 0 ∨ d.endUnixMs < oldest then d.endUnixMs else oldest) 0

/-- `UsageQueue`: the status, and whether the oldest payload could be decoded. -/
def usageQueue (unmarshal : Bytes → Option UsageBatch) (streamID : String) (s : Store) :
    UsageQueueStatus × Bool :=
  match s.streams.get? streamID with
  | none => ({}, true)
  | some st =>
    let result : UsageQueueStatus :=
      { pendingBatches := st.nextSeq - st.committedSeq - 1, recoveryIssue := st.recoveryIssue }
    if result.pendingBatches > 0 then
      match nextBatch streamID s with
      | none => (result, true)
      | some batch =>
        match unmarshal batch.payload with
        | none => (result, false)
        | some message => ({ result with oldestEnd := oldestEnd message.deltas }, true)
    else (result, true)

/-! ## Runs -/

/-- One call. -/
def Store.call (s : Store) : UsageEvent → Except StoreError Store
  | .recordSample streamID counters => (recordSample streamID counters s).map Prod.snd
  | .acknowledgeUsage streamID seq => acknowledgeUsage streamID seq s
  | .requireUsageRecovery streamID message => requireUsageRecovery streamID message s

/-- The store after one call: a call that fails is rolled back. -/
def Store.step (s : Store) (event : UsageEvent) : Store :=
  match s.call event with
  | .ok s' => s'
  | .error _ => s

def Store.run (events : List UsageEvent) : Store := events.foldl Store.step .empty

def UsageEvent.streamID : UsageEvent → String
  | .recordSample streamID _ => streamID
  | .acknowledgeUsage streamID _ => streamID
  | .requireUsageRecovery streamID _ => streamID

/-! ## Keys -/

theorem batchID_inj {s t : String} {a b : Int} (ha : 0 ≤ a) (hb : 0 ≤ b)
    (h : batchID s a = batchID t b) : s = t ∧ a = b := by
  lift a to ℕ using ha
  lift b to ℕ using hb
  have hnat : ∀ n : ℕ, toString (n : Int) = toString n := fun _ => rfl
  have hlist : s.toList ++ (":".toList ++ (toString a).toList) =
      t.toList ++ (":".toList ++ (toString b).toList) := by
    have htext := congrArg String.toList h
    simpa only [batchID, hnat, String.toList_append, List.append_assoc] using htext
  have hreverse : (toString a).toList.reverse ++ ':' :: s.toList.reverse =
      (toString b).toList.reverse ++ ':' :: t.toList.reverse := by
    have hrev := congrArg List.reverse hlist
    simpa using hrev
  have hdigits : ∀ n : ℕ, ∀ d ∈ (toString n).toList.reverse, d.isDigit :=
    fun n d hd => isDigit_of_mem_toString (List.mem_reverse.1 hd)
  obtain ⟨hn, hs⟩ := digits_append_inj (by decide) (hdigits a) (hdigits b) hreverse
  constructor
  · exact String.toList_inj.1 (List.reverse_injective hs)
  · have htext := String.toList_inj.1 (List.reverse_injective hn)
    rw [Nat.toString_eq_repr, Nat.toString_eq_repr] at htext
    rw [Nat.repr_injective htext]

/-! ## Consecutive sequences -/

/-- `n` consecutive numbers. -/
def numbers (first : Int) : ℕ → List Int
  | 0 => []
  | n + 1 => first :: numbers (first + 1) n

theorem mem_numbers {first x : Int} {n : ℕ} : x ∈ numbers first n ↔ first ≤ x ∧ x < first + n := by
  induction n generalizing first with
  | zero =>
    simp only [numbers, List.not_mem_nil, Nat.cast_zero, add_zero, false_iff]
    omega
  | succ n ih =>
    rw [numbers, List.mem_cons, ih]
    push_cast
    omega

theorem nodup_numbers (first : Int) (n : ℕ) : (numbers first n).Nodup := by
  induction n generalizing first with
  | zero => exact List.nodup_nil
  | succ n ih =>
    rw [numbers, List.nodup_cons, mem_numbers]
    exact ⟨by omega, ih _⟩

theorem numbers_append (first : Int) (m n : ℕ) :
    numbers first (m + n) = numbers first m ++ numbers (first + m) n := by
  induction m generalizing first with
  | zero => simp [numbers]
  | succ m ih =>
    rw [Nat.succ_add, numbers, ih, numbers, List.cons_append]
    push_cast
    rw [add_assoc, add_comm 1]

/-- Dropping the numbers up to one of them. -/
theorem filter_numbers {first seq : Int} {n : ℕ} (hlow : first ≤ seq + 1)
    (hhigh : seq < first + n) :
    (numbers first n).filter (fun x => decide (seq < x)) =
      numbers (seq + 1) (first + n - (seq + 1)).toNat := by
  obtain ⟨m, hm⟩ : ∃ m : ℕ, seq + 1 = first + m := ⟨(seq + 1 - first).toNat, by omega⟩
  obtain ⟨k, rfl⟩ : ∃ k, n = m + k := ⟨n - m, by omega⟩
  rw [numbers_append, List.filter_append, List.filter_eq_nil_iff.2, List.filter_eq_self.2, hm,
    List.nil_append]
  · congr 1
    push_cast
    omega
  · intro x hx
    rw [mem_numbers] at hx
    simp only [decide_eq_true_eq]
    omega
  · intro x hx
    rw [mem_numbers] at hx
    simp only [decide_eq_true_eq]
    omega

/-! ## The rows of a stream -/

/-- The stored batches of a stream, in the order of the table. -/
def rowsOf (streamID : String) (s : Store) : List BatchRow :=
  (s.batches.rows.map Prod.snd).filter fun row => row.streamID = streamID

/-- How the rows and the row of a stream belong together. -/
structure Represented (streamID : String) (s : Store) : Prop where
  cursors : 0 ≤ (streamOf streamID s).committedSeq ∧
    (streamOf streamID s).committedSeq < (streamOf streamID s).nextSeq ∧
    (streamOf streamID s).nextSeq ≤ maxInt64
  sequences : (rowsOf streamID s).map BatchRow.seq =
    numbers ((streamOf streamID s).committedSeq + 1)
      ((streamOf streamID s).nextSeq - ((streamOf streamID s).committedSeq + 1)).toNat
  pending : (streamOf streamID s).pendingBytes = ((rowsOf streamID s).map BatchRow.sizeBytes).sum ∧
    (streamOf streamID s).pendingBytes ≤ outboxBudget

/-- How the rows are stored. -/
structure RowOk (x : String × BatchRow) : Prop where
  key : x.1 = batchID x.2.streamID x.2.seq
  hash : x.2.payloadHash = sha256 x.2.payload
  size : x.2.sizeBytes = x.2.payload.length

structure OutboxInv (s : Store) : Prop where
  rows : ∀ x ∈ s.batches.rows, RowOk x
  streams : ∀ streamID, Represented streamID s

/-- What an operation on one stream leaves of another. -/
structure SameStream (streamID : String) (s s' : Store) : Prop where
  row : s'.streams.get? streamID = s.streams.get? streamID
  batches : rowsOf streamID s' = rowsOf streamID s
  cursors : ∀ userID, s'.cursors.get? (cursorID streamID userID) =
    s.cursors.get? (cursorID streamID userID)

section Operations

variable {streamID : String} {s s' : Store}

theorem Represented.of_same {t : String} (h : Represented t s) (hsame : SameStream t s s') :
    Represented t s' := by
  have hrow : streamOf t s' = streamOf t s := by rw [streamOf, hsame.row, streamOf]
  obtain ⟨hcursors, hsequences, hpending⟩ := h
  exact ⟨hrow ▸ hcursors, hrow ▸ hsame.batches ▸ hsequences, hrow ▸ hsame.batches ▸ hpending⟩

theorem SameStream.refl (t : String) (s : Store) : SameStream t s s := ⟨rfl, rfl, fun _ => rfl⟩

/-! ## Appending -/

theorem mem_outboxRows {seq : Int} {ms : List UsageBatch} {x : String × BatchRow}
    (h : x ∈ outboxRows streamID seq ms) : RowOk x ∧ x.2.streamID = streamID := by
  induction ms generalizing seq with
  | nil => cases h
  | cons m ms ih =>
    rcases List.mem_cons.1 h with rfl | h
    · exact ⟨⟨rfl, rfl, rfl⟩, rfl⟩
    · exact ih h

theorem map_seq_outboxRows (seq : Int) (ms : List UsageBatch) :
    ((outboxRows streamID seq ms).map Prod.snd).map BatchRow.seq = numbers seq ms.length := by
  induction ms generalizing seq with
  | nil => rfl
  | cons m ms ih =>
    rw [outboxRows, List.map_cons, List.map_cons, ih, List.length_cons, numbers]
    rfl

theorem map_size_outboxRows (seq : Int) (ms : List UsageBatch) :
    ((outboxRows streamID seq ms).map Prod.snd).map BatchRow.sizeBytes =
      ms.map fun m => (m.marshal.length : Int) := by
  induction ms generalizing seq with
  | nil => rfl
  | cons m ms ih =>
    rw [outboxRows, List.map_cons, List.map_cons, ih, List.map_cons]
    rfl

/-- The rows of a stream after some rows were appended. -/
theorem rowsOf_append {new : List (String × BatchRow)}
    (h : s'.batches.rows = s.batches.rows ++ new) (hnew : ∀ x ∈ new, x.2.streamID = streamID)
    (t : String) : rowsOf t s' = rowsOf t s ++ if t = streamID then new.map Prod.snd else [] := by
  rw [rowsOf, h, List.map_append, List.filter_append]
  refine congrArg _ ?_
  by_cases ht : t = streamID
  · rw [if_pos ht, List.filter_eq_self]
    intro row hrow
    obtain ⟨x, hx, rfl⟩ := List.mem_map.1 hrow
    simp [hnew x hx, ht]
  · rw [if_neg ht, List.filter_eq_nil_iff]
    intro row hrow
    obtain ⟨x, hx, rfl⟩ := List.mem_map.1 hrow
    simp [hnew x hx, Ne.symm ht]

/-- What the appending loop counts. -/
theorem appended_bytes {nextSeq : Int} {tx out : AppendTx} {ms : List UsageBatch}
    (h : ms.foldlM (appendBatch streamID nextSeq) tx = .ok out)
    (hpending : tx.pendingBytes ≤ outboxBudget) (hnext : nextSeq + tx.index ≤ maxInt64) :
    out.pendingBytes = tx.pendingBytes + (ms.map fun m => (m.marshal.length : Int)).sum ∧
      out.pendingBytes ≤ outboxBudget ∧ nextSeq + tx.index + ms.length ≤ maxInt64 := by
  induction ms generalizing tx with
  | nil =>
    simp only [List.foldlM_nil, pure_eq_ok] at h
    subst h
    simpa using ⟨hpending, hnext⟩
  | cons m ms ih =>
    simp only [List.foldlM_cons, bind_eq_ok] at h
    obtain ⟨tx', hm, hrest⟩ := h
    simp only [appendBatch, bind_eq_ok, failIf_eq_ok, found_eq_ok, pure_eq_ok, exists_const] at hm
    obtain ⟨hseq, hfull, batches, -, rfl⟩ := hm
    have hsize : (batchRow streamID (nextSeq + tx.index) m).sizeBytes = m.marshal.length := rfl
    rw [hsize] at hfull hrest
    obtain ⟨hout, hbudget, hlast⟩ := ih hrest (by dsimp only; omega) (by push_cast; omega)
    simp only [List.map_cons, List.sum_cons, List.length_cons]
    push_cast at hlast ⊢
    dsimp only at hout
    omega

/-- The counters a sample leaves in the row of its stream. -/
theorem recordSample_pending {counters : List Counter} {first : Option Batch}
    (h : recordSample streamID counters s = .ok (first, s'))
    (hpending : (streamOf streamID s).pendingBytes ≤ outboxBudget)
    (hnext : (streamOf streamID s).nextSeq ≤ maxInt64) :
    (streamOf streamID s').pendingBytes = (streamOf streamID s).pendingBytes +
        ((sampleMessages streamID counters s).map fun m => (m.marshal.length : Int)).sum ∧
      (streamOf streamID s').pendingBytes ≤ outboxBudget ∧
      (streamOf streamID s').nextSeq ≤ maxInt64 := by
  simp only [recordSample, bind_eq_ok, pure_eq_ok, Prod.mk.injEq] at h
  obtain ⟨⟨st, streams⟩, hopen, tx, htx, out, hout, -, rfl⟩ := h
  obtain ⟨hst, hget, -⟩ := openStream_eq_ok hopen
  have hrow : streamOf streamID s = st := hst.symm
  rw [hrow] at hpending hnext ⊢
  have hmsg : sampleMessages streamID counters s = batchDeltas tx.runtimeID tx.deltas := by
    simp [sampleMessages, htx]
  obtain ⟨hbytes, hbudget, hlast⟩ := appended_bytes hout hpending (by simpa using hnext)
  rw [hmsg]
  by_cases hlen : (batchDeltas tx.runtimeID tx.deltas).length > 0
  · simp only [streamOf, hlen, if_true, Table.get?_set_self, Option.getD_some]
    exact ⟨hbytes, hbudget, by simpa using hlast⟩
  · have hnil : batchDeltas tx.runtimeID tx.deltas = [] := by
      rw [← List.length_eq_zero_iff]
      omega
    simp only [streamOf, hnil, List.length_nil, gt_iff_lt, lt_irrefl, if_false, hget,
      Option.getD_some, List.map_nil, List.sum_nil, add_zero, true_and]
    exact ⟨hpending, hnext⟩

/-- A sample moves the cursors of its own stream only. -/
theorem recordCounters_other {counters : List Counter} {cursors : Table String CursorRow}
    {tx : SampleTx} (h : recordCounters streamID cursors counters = .ok tx) {t : String}
    (ht : t ≠ streamID) (userID : String) :
    tx.cursors.get? (cursorID t userID) = cursors.get? (cursorID t userID) := by
  refine foldlM_induction (I := fun tx : SampleTx =>
    tx.cursors.get? (cursorID t userID) = cursors.get? (cursorID t userID)) ?_ h rfl
  intro tx c tx' htx hstep
  obtain ⟨-, -, r, -, rfl⟩ := recordCounter_spec hstep
  dsimp only
  by_cases hr : r.isSome
  · rw [if_pos hr, Table.get?_set_of_ne _ _ fun hid => ht (cursorID_inj hid).1]
    exact htx
  · rw [if_neg hr]
    exact htx

theorem OutboxInv.recordSample (h : OutboxInv s) {counters : List Counter}
    {first : Option Batch} (hcall : recordSample streamID counters s = .ok (first, s')) :
    OutboxInv s' ∧ ∀ t, t ≠ streamID → SameStream t s s' := by
  obtain ⟨⟨tx, htx, hcursors⟩, hrows, ⟨st, hst, hnext, hcommitted, -⟩, hother⟩ :=
    recordSample_spec hcall
  have hof := rowsOf_append hrows fun x hx => (mem_outboxRows hx).2
  have hsame : ∀ t, t ≠ streamID → SameStream t s s' := by
    intro t ht
    refine ⟨hother t ht, ?_, fun userID => ?_⟩
    · rw [hof, if_neg ht, List.append_nil]
    · rw [hcursors]
      exact recordCounters_other htx ht userID
  refine ⟨⟨fun x hx => ?_, fun t => ?_⟩, hsame⟩
  · rw [hrows] at hx
    rcases List.mem_append.1 hx with hx | hx
    · exact h.rows x hx
    · exact (mem_outboxRows hx).1
  · by_cases ht : t = streamID
    · subst ht
      obtain ⟨⟨hzero, hlt, hmax⟩, hseqs, hpending, hbudget⟩ := h.streams t
      obtain ⟨hbytes, hbudget', hmax'⟩ := recordSample_pending hcall hbudget hmax
      have hrow : streamOf t s' = st := by rw [streamOf, hst, Option.getD_some]
      refine ⟨⟨?_, ?_, hmax'⟩, ?_, ?_, hbudget'⟩
      · rw [hrow, hcommitted]
        exact hzero
      · rw [hrow, hcommitted, hnext]
        omega
      · rw [hof, if_pos rfl, List.map_append, hseqs, map_seq_outboxRows, hrow, hcommitted, hnext]
        have hsplit : ((streamOf t s).nextSeq + (sampleMessages t counters s).length -
            ((streamOf t s).committedSeq + 1)).toNat =
            ((streamOf t s).nextSeq - ((streamOf t s).committedSeq + 1)).toNat +
              (sampleMessages t counters s).length := by omega
        rw [hsplit, numbers_append]
        congr 2
        omega
      · rw [hof, if_pos rfl, List.map_append, List.sum_append, map_size_outboxRows, ← hpending]
        exact hbytes
    · exact (h.streams t).of_same (hsame t ht)

/-! ## Acknowledging -/

/-- The rows of a stream after the front part of one stream was deleted. -/
theorem rowsOf_acknowledged {seq : Int} (h : s'.batches = s.batches.deleteWhere fun _ row =>
      decide (row.streamID = streamID ∧ row.seq ≤ seq)) (t : String) :
    rowsOf t s' =
      if t = streamID then (rowsOf t s).filter fun row => decide (seq < row.seq)
      else rowsOf t s := by
  have hrows : s'.batches.rows.map Prod.snd = (s.batches.rows.map Prod.snd).filter fun row =>
      !decide (row.streamID = streamID ∧ row.seq ≤ seq) := by
    rw [h, Table.deleteWhere, List.filter_map]
    rfl
  rw [rowsOf, hrows, List.filter_filter]
  by_cases ht : t = streamID
  · rw [if_pos ht, rowsOf, List.filter_filter]
    refine List.filter_congr fun row _ => ?_
    rcases le_or_gt row.seq seq with hle | hgt
    · simp [ht, hle, not_lt.2 hle]
    · simp [ht, hgt, not_le.2 hgt]
  · rw [if_neg ht, rowsOf]
    refine List.filter_congr fun row _ => ?_
    by_cases hrow : row.streamID = t
    · simp [hrow, ht]
    · simp [hrow]

/-- What an acknowledgement frees. -/
theorem sum_acknowledged (seq : Int) (t : String) (s : Store) :
    s.batches.sumBy (fun _ row =>
        if decide (row.streamID = t ∧ row.seq ≤ seq) = true then row.sizeBytes else 0) +
      (((rowsOf t s).filter fun row => decide (seq < row.seq)).map BatchRow.sizeBytes).sum =
      ((rowsOf t s).map BatchRow.sizeBytes).sum := by
  simp only [Table.sumBy, rowsOf]
  induction s.batches.rows with
  | nil => rfl
  | cons x xs ih =>
    by_cases hx : x.2.streamID = t
    · by_cases hle : x.2.seq ≤ seq
      · have hgt : ¬ seq < x.2.seq := by omega
        simp only [List.map_cons, List.sum_cons, hx, hle, hgt, List.filter_cons, decide_true,
          decide_false, and_self, if_true, Bool.false_eq_true, if_false] at ih ⊢
        omega
      · have hgt : seq < x.2.seq := by omega
        simp only [List.map_cons, List.sum_cons, hx, hle, hgt, List.filter_cons, decide_true,
          decide_false, and_false, if_true, Bool.false_eq_true, if_false] at ih ⊢
        omega
    · simp only [List.map_cons, List.sum_cons, hx, List.filter_cons, decide_false, false_and,
        Bool.false_eq_true, if_false] at ih ⊢
      omega

theorem acknowledgeUsage_eq_ok {seq : Int} (h : acknowledgeUsage streamID seq s = .ok s') :
    ∃ st, s.streams.get? streamID = some st ∧ st.committedSeq ≤ seq ∧ seq < st.nextSeq ∧
      s'.cursors = s.cursors ∧
      s'.batches = s.batches.deleteWhere (fun _ row =>
        decide (row.streamID = streamID ∧ row.seq ≤ seq)) ∧
      s'.streams = s.streams.set streamID { st with
        committedSeq := seq
        pendingBytes := max 0 (st.pendingBytes - s.batches.sumBy fun _ row =>
          if decide (row.streamID = streamID ∧ row.seq ≤ seq) = true then row.sizeBytes else 0) } := by
  simp only [acknowledgeUsage, bind_eq_ok, found_eq_ok, failIf_eq_ok, pure_eq_ok,
    exists_const] at h
  obtain ⟨st, hst, hseq, rfl⟩ := h
  exact ⟨st, hst, by omega, by omega, rfl, rfl, rfl⟩

theorem OutboxInv.acknowledgeUsage (h : OutboxInv s) {seq : Int}
    (hcall : acknowledgeUsage streamID seq s = .ok s') :
    OutboxInv s' ∧ ∀ t, t ≠ streamID → SameStream t s s' := by
  obtain ⟨st, hst, hlow, hhigh, hcursors, hbatches, hstreams⟩ := acknowledgeUsage_eq_ok hcall
  have hof := rowsOf_acknowledged hbatches
  have hsame : ∀ t, t ≠ streamID → SameStream t s s' := by
    intro t ht
    refine ⟨?_, ?_, fun userID => by rw [hcursors]⟩
    · rw [hstreams, Table.get?_set_of_ne _ _ ht]
    · rw [hof, if_neg ht]
  refine ⟨⟨fun x hx => ?_, fun t => ?_⟩, hsame⟩
  · rw [hbatches] at hx
    exact h.rows x (List.mem_of_mem_filter hx)
  · by_cases ht : t = streamID
    · subst ht
      obtain ⟨⟨hzero, hlt, hmax⟩, hseqs, hpending, hbudget⟩ := h.streams t
      have hold : streamOf t s = st := by rw [streamOf, hst, Option.getD_some]
      rw [hold] at hzero hlt hmax hseqs hpending hbudget
      have hsum := sum_acknowledged seq t s
      have hnonneg : 0 ≤ (((rowsOf t s).filter fun row => decide (seq < row.seq)).map
          BatchRow.sizeBytes).sum := by
        refine List.sum_nonneg fun size hsize => ?_
        obtain ⟨row, hrow, rfl⟩ := List.mem_map.1 hsize
        obtain ⟨x, hx, rfl⟩ := List.mem_map.1
          (List.mem_of_mem_filter (List.mem_of_mem_filter hrow))
        rw [(h.rows x hx).size]
        exact Int.natCast_nonneg _
      have hfreed : 0 ≤ s.batches.sumBy fun _ row =>
          if decide (row.streamID = t ∧ row.seq ≤ seq) = true then row.sizeBytes else 0 := by
        refine List.sum_nonneg fun size hsize => ?_
        obtain ⟨x, hx, rfl⟩ := List.mem_map.1 hsize
        dsimp only
        by_cases hacked : decide (x.2.streamID = t ∧ x.2.seq ≤ seq) = true
        · rw [if_pos hacked, (h.rows x hx).size]
          exact Int.natCast_nonneg _
        · rw [if_neg hacked]
      refine ⟨?_, ?_, ?_⟩
      · simp only [streamOf, hstreams, Table.get?_set_self, Option.getD_some]
        omega
      · simp only [streamOf, hstreams, Table.get?_set_self, Option.getD_some]
        have hfilter := congrArg (List.filter fun x => decide (seq < x)) hseqs
        rw [List.filter_map, filter_numbers (by omega) (by omega)] at hfilter
        rw [hof, if_pos rfl]
        refine hfilter.trans ?_
        congr 1
        omega
      · simp only [streamOf, hstreams, Table.get?_set_self, Option.getD_some]
        rw [hof, if_pos rfl]
        omega
    · exact (h.streams t).of_same (hsame t ht)

theorem OutboxInv.requireUsageRecovery (h : OutboxInv s) {message : String}
    (hcall : requireUsageRecovery streamID message s = .ok s') :
    OutboxInv s' ∧ ∀ t, t ≠ streamID → SameStream t s s' := by
  simp only [Daemon.requireUsageRecovery, bind_eq_ok, found_eq_ok, pure_eq_ok] at hcall
  obtain ⟨st, hst, rfl⟩ := hcall
  refine ⟨⟨h.rows, fun t => ?_⟩, fun t ht => ⟨Table.get?_set_of_ne _ _ ht, rfl, fun _ => rfl⟩⟩
  by_cases ht : t = streamID
  · subst ht
    obtain ⟨hcursors, hseqs, hpending⟩ := h.streams t
    have hold : streamOf t s = st := by rw [streamOf, hst, Option.getD_some]
    rw [hold] at hcursors hseqs hpending
    have hnew : streamOf t { s with streams := s.streams.set t { st with recoveryIssue := message } } =
        { st with recoveryIssue := message } := by
      rw [streamOf, Table.get?_set_self, Option.getD_some]
    refine ⟨?_, ?_, ?_⟩
    · rw [hnew]
      exact hcursors
    · rw [hnew]
      exact hseqs
    · rw [hnew]
      exact hpending
  · exact (h.streams t).of_same ⟨Table.get?_set_of_ne _ _ ht, rfl, fun _ => rfl⟩

/-! ## Runs -/

theorem OutboxInv.step (h : OutboxInv s) (event : UsageEvent) :
    OutboxInv (s.step event) ∧ ∀ t, t ≠ event.streamID → SameStream t s (s.step event) := by
  unfold Store.step
  cases hcall : s.call event with
  | error e => exact ⟨h, fun t _ => .refl t s⟩
  | ok s' =>
    cases event with
    | recordSample streamID counters =>
      cases hsample : Daemon.recordSample streamID counters s with
      | error e => simp [Store.call, hsample, Except.map] at hcall
      | ok r =>
        obtain ⟨first, s''⟩ := r
        simp only [Store.call, hsample, Except.map, Except.ok.injEq] at hcall
        subst hcall
        exact h.recordSample hsample
    | acknowledgeUsage streamID seq => exact h.acknowledgeUsage hcall
    | requireUsageRecovery streamID message => exact h.requireUsageRecovery hcall

theorem outboxInv_empty : OutboxInv .empty := by
  refine ⟨nofun, fun t => ⟨?_, rfl, rfl, ?_⟩⟩
  · show (0 : Int) ≤ 0 ∧ (0 : Int) < 1 ∧ (1 : Int) ≤ maxInt64
    decide
  · show (0 : Int) ≤ outboxBudget
    decide

theorem outboxInv_run (events : List UsageEvent) : OutboxInv (Store.run events) := by
  have hrun : ∀ s, OutboxInv s → OutboxInv (events.foldl Store.step s) := by
    induction events with
    | nil => exact fun s hs => hs
    | cons event events ih => exact fun s hs => ih _ (hs.step event).1
  exact hrun _ outboxInv_empty

/-! ## What is read back -/

/-- A front of consecutive sequences is found first. -/
theorem insertionSort_rowsOf (h : OutboxInv s) (streamID : String) :
    (rowsOf streamID s).insertionSort (fun a b => a.seq ≤ b.seq) = rowsOf streamID s := by
  have hsorted : ∀ (first : Int) (n : ℕ), (numbers first n).Pairwise (· ≤ ·) := by
    intro first n
    induction n generalizing first with
    | zero => exact List.Pairwise.nil
    | succ n ih =>
      refine List.pairwise_cons.2 ⟨fun x hx => ?_, ih _⟩
      rw [mem_numbers] at hx
      omega
  have hpairwise := hsorted ((streamOf streamID s).committedSeq + 1)
    ((streamOf streamID s).nextSeq - ((streamOf streamID s).committedSeq + 1)).toNat
  rw [← (h.streams streamID).sequences, List.pairwise_map] at hpairwise
  exact List.Pairwise.insertionSort_eq hpairwise

theorem nextBatch_eq (h : OutboxInv s) (streamID : String) :
    nextBatch streamID s = (rowsOf streamID s).head?.map fun row =>
      ⟨row.seq, row.streamID, row.payloadHash, row.payload⟩ := by
  have hsort := insertionSort_rowsOf h streamID
  simp only [nextBatch, rowsOf] at hsort ⊢
  rw [hsort]

/-- The number of stored rows, from the two cursors. -/
theorem length_rowsOf (h : OutboxInv s) (streamID : String) :
    ((rowsOf streamID s).length : Int) =
      (streamOf streamID s).nextSeq - (streamOf streamID s).committedSeq - 1 := by
  have hlength : ∀ (first : Int) (n : ℕ), (numbers first n).length = n := by
    intro first n
    induction n generalizing first with
    | zero => rfl
    | succ n ih => rw [numbers, List.length_cons, ih]
  have hcount := congrArg List.length (h.streams streamID).sequences
  rw [List.length_map, hlength] at hcount
  have hcursors := (h.streams streamID).cursors
  rw [hcount]
  omega

theorem pendingBatches_usageQueue (unmarshal : Bytes → Option UsageBatch) (streamID : String)
    (s : Store) : (usageQueue unmarshal streamID s).1.pendingBatches =
      (streamOf streamID s).nextSeq - (streamOf streamID s).committedSeq - 1 := by
  unfold usageQueue streamOf
  cases s.streams.get? streamID with
  | none => rfl
  | some st =>
    simp only [Option.getD_some]
    by_cases hpending : st.nextSeq - st.committedSeq - 1 > 0
    · simp only [hpending, if_true]
      cases nextBatch streamID s with
      | none => rfl
      | some batch =>
        dsimp only
        cases unmarshal batch.payload <;> rfl
    · simp only [hpending, if_false]

theorem mem_rowsOf {row : BatchRow} :
    row ∈ rowsOf streamID s ↔ row.streamID = streamID ∧ ∃ id, (id, row) ∈ s.batches.rows := by
  simp only [rowsOf, List.mem_filter, List.mem_map, Prod.exists, exists_eq_right,
    decide_eq_true_eq]
  exact and_comm

/-- A stored row is found under its key. -/
theorem OutboxInv.stored (h : OutboxInv s) {row : BatchRow} (hrow : row ∈ rowsOf streamID s) :
    s.batches.get? (batchID streamID row.seq) = some row ∧
      row.payloadHash = sha256 row.payload ∧ row.sizeBytes = row.payload.length := by
  obtain ⟨rfl, id, hmem⟩ := mem_rowsOf.1 hrow
  have hok := h.rows _ hmem
  refine ⟨?_, hok.hash, hok.size⟩
  have hkey : id = batchID row.streamID row.seq := hok.key
  rw [← hkey]
  exact Table.get?_of_mem hmem

end Operations

/-- After every run of calls, succeeding or failing, over any streams: the rows of a stream are
the sequences after the committed one, each once and as it was appended; its byte counter, its
next batch and its queue length say the same; and the next call changes nothing if it fails, and
no row of another stream if it succeeds. Row keys do not collide. -/
theorem outbox_represents (events : List UsageEvent) :
    let s := Store.run events
    (∀ streamID, let st := streamOf streamID s
      (∀ seq, (∃ row ∈ rowsOf streamID s, row.seq = seq) ↔
        st.committedSeq < seq ∧ seq < st.nextSeq) ∧
      ((rowsOf streamID s).map BatchRow.seq).Nodup ∧
      (∀ row ∈ rowsOf streamID s, s.batches.get? (batchID streamID row.seq) = some row ∧
        row.payloadHash = sha256 row.payload ∧ row.sizeBytes = row.payload.length) ∧
      st.pendingBytes = ((rowsOf streamID s).map BatchRow.sizeBytes).sum ∧
      st.pendingBytes ≤ 64 * 2 ^ 20 ∧
      (nextBatch streamID s = none ↔ st.nextSeq = st.committedSeq + 1) ∧
      (∀ b, nextBatch streamID s = some b → b.seq = st.committedSeq + 1 ∧ b.streamID = streamID ∧
        ∃ row ∈ rowsOf streamID s, row.seq = b.seq ∧ row.payload = b.payload ∧
          row.payloadHash = b.hash) ∧
      ∀ unmarshal, (usageQueue unmarshal streamID s).1.pendingBatches =
        (rowsOf streamID s).length) ∧
    (∀ event, (∀ e, s.call event = .error e → s.step event = s) ∧
      ∀ t, t ≠ event.streamID → SameStream t s (s.step event)) ∧
    (∀ t u a b, 0 ≤ a → 0 ≤ b → batchID t a = batchID u b → t = u ∧ a = b) ∧
    ∀ t u user user', cursorID t user = cursorID u user' → t = u ∧ user = user' := by
  intro s
  have h : OutboxInv s := outboxInv_run events
  refine ⟨fun streamID => ?_, fun event => ⟨fun e he => ?_, (h.step event).2⟩,
    fun t u a b => batchID_inj, fun t u user user' => cursorID_inj⟩
  · intro st
    obtain ⟨⟨hzero, hlt, hmax⟩, hseqs, hpending, hbudget⟩ := h.streams streamID
    have hmem : ∀ seq, (∃ row ∈ rowsOf streamID s, row.seq = seq) ↔
        st.committedSeq < seq ∧ seq < st.nextSeq := by
      intro seq
      rw [← List.mem_map, hseqs, mem_numbers]
      show _ ↔ (streamOf streamID s).committedSeq < seq ∧ seq < (streamOf streamID s).nextSeq
      omega
    have hlength := length_rowsOf h streamID
    have hnext := nextBatch_eq h streamID
    refine ⟨hmem, ?_, fun row hrow => h.stored hrow, hpending, hbudget, ?_, ?_, fun unmarshal => ?_⟩
    · rw [hseqs]
      exact nodup_numbers _ _
    · rw [hnext, Option.map_eq_none_iff, List.head?_eq_none_iff, ← List.length_eq_zero_iff]
      show _ ↔ (streamOf streamID s).nextSeq = (streamOf streamID s).committedSeq + 1
      omega
    · intro b hb
      rw [hnext] at hb
      obtain ⟨row, hrow, rfl⟩ := Option.map_eq_some_iff.1 hb
      have hin := List.mem_of_head? hrow
      refine ⟨?_, (mem_rowsOf.1 hin).1, row, hin, rfl, rfl, rfl⟩
      -- The first number is the committed one plus one.
      have hhead := congrArg List.head? hseqs
      rw [List.head?_map, hrow] at hhead
      obtain ⟨n, hn⟩ : ∃ n : ℕ, ((streamOf streamID s).nextSeq -
          ((streamOf streamID s).committedSeq + 1)).toNat = n + 1 := by
        have hpos := List.length_pos_of_mem hin
        exact ⟨(rowsOf streamID s).length - 1, by omega⟩
      rw [hn, numbers] at hhead
      exact Option.some.inj hhead
    · rw [pendingBatches_usageQueue, hlength]
  · show s.step event = s
    simp only [Store.step, he]

end Bifurcation.Daemon
