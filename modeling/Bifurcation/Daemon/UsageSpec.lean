import Bifurcation.Daemon.Usage
import Bifurcation.Lib.Text

/-!
# What one usage transaction does

The inversion lemma of each operation of the usage store, and what batching preserves. Later
modules cite these and never unfold the operations again.
-/

namespace Bifurcation.Daemon

/-! ## Cursor keys -/

theorem cursorID_inj {s t u v : String} (h : cursorID s u = cursorID t v) : s = t ∧ u = v := by
  have hl : (toString s.utf8ByteSize).toList ++ ':' :: (s ++ u).toList =
      (toString t.utf8ByteSize).toList ++ ':' :: (t ++ v).toList := by
    have := congrArg String.toList h
    simpa [cursorID] using this
  obtain ⟨hn, hrest⟩ := digits_append_inj (by decide) (fun d => isDigit_of_mem_toString)
    (fun d => isDigit_of_mem_toString) hl
  have hsize : s.utf8ByteSize = t.utf8ByteSize := by
    have := String.toList_inj.1 hn
    rw [Nat.toString_eq_repr, Nat.toString_eq_repr] at this
    exact Nat.repr_injective this
  exact append_inj_of_utf8ByteSize hsize (String.toList_inj.1 hrest)

/-! ## Cutting a delta into days -/

theorem scaledBytes_zero (total duration : Int) : scaledBytes total 0 duration = 0 := by
  simp [scaledBytes]

theorem scaledBytes_self (total : Int) {duration : Int} (h : duration ≠ 0) :
    scaledBytes total duration duration = total :=
  Int.mul_tdiv_cancel total h

/-- The bytes of the pieces from `start` on are what the delta has left there: consecutive cut
points cancel. -/
theorem sum_piecesFrom (delta : Delta) {n : ℕ} {start : Int} (hle : start ≤ delta.end_)
    (hn : delta.end_ - start ≤ n * dayMilliseconds) :
    ((piecesFrom delta n start).map (·.uploadBytes)).sum =
        scaledBytes delta.upload (delta.end_ - delta.start) (delta.end_ - delta.start) -
          scaledBytes delta.upload (start - delta.start) (delta.end_ - delta.start) ∧
      ((piecesFrom delta n start).map (·.downloadBytes)).sum =
        scaledBytes delta.download (delta.end_ - delta.start) (delta.end_ - delta.start) -
          scaledBytes delta.download (start - delta.start) (delta.end_ - delta.start) := by
  have hday : 0 < dayMilliseconds := by decide
  induction n generalizing start with
  | zero =>
    obtain rfl : start = delta.end_ := by push_cast at hn; omega
    simp [piecesFrom]
  | succ n ih =>
    unfold piecesFrom
    split_ifs with hlt
    · have hstop : min delta.end_ (start + dayMilliseconds) ≤ delta.end_ := min_le_left _ _
      have hleft : delta.end_ - min delta.end_ (start + dayMilliseconds) ≤ n * dayMilliseconds := by
        rcases min_choice delta.end_ (start + dayMilliseconds) with h | h <;> rw [h]
        · have := mul_nonneg (Int.natCast_nonneg n) hday.le
          omega
        · rw [Nat.cast_succ, add_one_mul] at hn; omega
      obtain ⟨hup, hdown⟩ := ih hstop hleft
      simp only [List.map_cons, List.sum_cons, hup, hdown]
      constructor <;> ring
    · obtain rfl : start = delta.end_ := by omega
      simp

theorem fuel_le (delta : Delta) :
    delta.end_ - delta.start ≤
      ((delta.end_ - delta.start) / dayMilliseconds + 1).toNat * dayMilliseconds := by
  unfold dayMilliseconds; omega

/-- Cutting a delta into days loses no byte. -/
theorem sum_pieces {delta : Delta} (h : delta.start < delta.end_) :
    ((pieces delta).map (·.uploadBytes)).sum = delta.upload ∧
      ((pieces delta).map (·.downloadBytes)).sum = delta.download := by
  have hne : delta.end_ - delta.start ≠ 0 := by omega
  obtain ⟨hup, hdown⟩ := sum_piecesFrom delta (le_of_lt h) (fuel_le delta)
  simp only [pieces, hup, hdown, sub_self, scaledBytes_zero, scaledBytes_self _ hne, sub_zero,
    and_self]

/-- Every piece belongs to the delta's user and lies between `start` and the delta's end. -/
theorem mem_piecesFrom {delta : Delta} {n : ℕ} {start : Int} {p : UsageDelta}
    (h : p ∈ piecesFrom delta n start) :
    p.userId = delta.userID ∧ start ≤ p.startUnixMs ∧ p.startUnixMs < p.endUnixMs ∧
      p.endUnixMs ≤ delta.end_ ∧ p.endUnixMs - p.startUnixMs ≤ dayMilliseconds := by
  have hday : 0 < dayMilliseconds := by decide
  induction n generalizing start with
  | zero => simp [piecesFrom] at h
  | succ n ih =>
    unfold piecesFrom at h
    split_ifs at h with hlt
    · simp only [List.mem_cons] at h
      rcases h with rfl | h
      · refine ⟨rfl, le_refl _, ?_, min_le_left _ _, ?_⟩
        · simp only [lt_min_iff]; omega
        · have := min_le_right delta.end_ (start + dayMilliseconds); simp only; omega
      · obtain ⟨huser, hstart, hrest⟩ := ih h
        refine ⟨huser, le_trans ?_ hstart, hrest⟩
        simp only [le_min_iff]; omega
    · simp at h

theorem mem_pieces {delta : Delta} {p : UsageDelta} (h : p ∈ pieces delta) :
    p.userId = delta.userID ∧ delta.start ≤ p.startUnixMs ∧ p.startUnixMs < p.endUnixMs ∧
      p.endUnixMs ≤ delta.end_ ∧ p.endUnixMs - p.startUnixMs ≤ dayMilliseconds :=
  mem_piecesFrom h

/-- The pieces follow each other in time. -/
theorem piecesFrom_ordered (delta : Delta) (n : ℕ) (start : Int) :
    (piecesFrom delta n start).Pairwise fun p q => p.endUnixMs ≤ q.startUnixMs := by
  induction n generalizing start with
  | zero => simp [piecesFrom]
  | succ n ih =>
    unfold piecesFrom
    split_ifs
    · exact List.pairwise_cons.2 ⟨fun q hq => (mem_piecesFrom hq).2.1, ih _⟩
    · exact List.Pairwise.nil

theorem pieces_ordered (delta : Delta) :
    (pieces delta).Pairwise fun p q => p.endUnixMs ≤ q.startUnixMs :=
  piecesFrom_ordered delta _ _

/-- A delta without bytes is cut into pieces without bytes. -/
theorem mem_piecesFrom_of_zero {delta : Delta} (hup : delta.upload = 0) (hdown : delta.download = 0)
    {n : ℕ} {start : Int} {p : UsageDelta} (h : p ∈ piecesFrom delta n start) :
    p.uploadBytes = 0 ∧ p.downloadBytes = 0 ∧ p.incomplete = delta.incomplete := by
  induction n generalizing start with
  | zero => simp [piecesFrom] at h
  | succ n ih =>
    unfold piecesFrom at h
    split_ifs at h
    · simp only [List.mem_cons] at h
      rcases h with rfl | h
      · simp [scaledBytes, hup, hdown]
      · exact ih h
    · simp at h

/-! ## Batching -/

/-- The deltas of the finished messages and of the one being filled. -/
def Batching.all (b : Batching) : List UsageDelta := b.result.flatMap (·.deltas) ++ b.deltas

theorem Batching.all_flush (runtimeID : String) (b : Batching) :
    (b.flush runtimeID).all = b.all ∧ (b.flush runtimeID).deltas = [] := by
  unfold flush
  split_ifs with h
  · simp [all]
  · simp only [not_lt, Nat.le_zero, List.length_eq_zero_iff] at h
    simp [all, h]

theorem Batching.all_add (runtimeID : String) (b : Batching) (piece : UsageDelta) :
    (b.add runtimeID piece).all = b.all ++ [piece] := by
  unfold add
  split_ifs
  · have h := (b.all_flush runtimeID).1
    simp only [all] at h ⊢
    rw [← List.append_assoc, h]
  · simp [all]

theorem Batching.all_foldl_add (runtimeID : String) (b : Batching) (l : List UsageDelta) :
    (l.foldl (add runtimeID) b).all = b.all ++ l := by
  induction l generalizing b with
  | nil => simp
  | cons p l ih => rw [List.foldl_cons, ih, all_add]; simp

/-- Batching only groups the pieces: read one after the other, the messages hold exactly the
pieces of the deltas. -/
theorem flatMap_batchDeltas (runtimeID : String) (deltas : List Delta) :
    (batchDeltas runtimeID deltas).flatMap (·.deltas) = deltas.flatMap pieces := by
  set b := (deltas.flatMap pieces).foldl (Batching.add runtimeID) ⟨[], [], 0⟩ with hb
  obtain ⟨hall, hnil⟩ := b.all_flush runtimeID
  have hpieces : b.all = deltas.flatMap pieces := by
    rw [hb, Batching.all_foldl_add]; simp [Batching.all]
  have : (b.flush runtimeID).all = (b.flush runtimeID).result.flatMap (·.deltas) := by
    simp [Batching.all, hnil]
  rw [batchDeltas, ← hb, ← this, hall, hpieces]

/-! ## One counter -/

theorem managedInitialDelta_cases {c : Counter} {incomplete : Bool} {ds : List Delta}
    (h : managedInitialDelta c incomplete = .ok ds) :
    ((c.startedAt = 0 ∨ c.upload = 0 ∧ c.download = 0) ∧ ds = []) ∨
      (c.startedAt ≠ 0 ∧ (c.upload ≠ 0 ∨ c.download ≠ 0) ∧ c.startedAt < c.observedAt ∧
        ds = [{ userID := c.userID, start := c.startedAt, end_ := c.observedAt
                upload := c.upload, download := c.download
                estimated := true, incomplete }]) := by
  unfold managedInitialDelta at h
  split_ifs at h with hzero hbad
  · exact .inl ⟨hzero, (Except.ok.inj h).symm⟩
  · rw [not_or, not_and_or] at hzero
    rw [not_or] at hbad
    exact .inr ⟨hzero.1, hzero.2, by omega, (Except.ok.inj h).symm⟩

/-- The gap before a counter: the interval from the last sample of a runtime that was never
closed to the start of the next one. -/
def gapOf : Option CursorRow → Counter → List Delta
  | none, _ => []
  | some old, c =>
    if old.runtimeID ≠ c.runtimeID ∧ ¬ old.closed ∧ gapEnd c > old.observedAt then
      [gapDelta old c]
    else []

/-- A final sample closed the runtime this non-final counter belongs to. -/
def stale (old : Option CursorRow) (c : Counter) : Prop :=
  ∃ o ∈ old, o.closed ∧ o.runtimeID = c.runtimeID ∧ ¬ c.final

instance (old : Option CursorRow) (c : Counter) : Decidable (stale old c) := by
  unfold stale; infer_instance

/-- Everything the comparison with the previous sample can answer. -/
theorem meterCounter_cases {old : Option CursorRow} {c : Counter} {r : Option (List Delta)}
    (h : meterCounter old c = .ok r) :
    (old = none ∧ ∃ first, r = some first ∧ managedInitialDelta c false = .ok first) ∨
    (stale old c ∧ r = none) ∨
    (∃ o, old = some o ∧ ¬ stale old c ∧ o.runtimeID = c.runtimeID ∧
      o.observedAt ≤ c.observedAt ∧ o.upload ≤ c.upload ∧ o.download ≤ c.download ∧
      ((c.upload - o.upload = 0 ∧ c.download - o.download = 0 ∧ r = some []) ∨
       ((c.upload - o.upload ≠ 0 ∨ c.download - o.download ≠ 0) ∧ o.observedAt < c.observedAt ∧
        r = some [{ userID := c.userID, start := o.observedAt, end_ := c.observedAt
                    upload := c.upload - o.upload, download := c.download - o.download
                    incomplete := false
                    estimated := decide (c.observedAt - o.observedAt > 10000) }]))) ∨
    (∃ o first incomplete, old = some o ∧ o.runtimeID ≠ c.runtimeID ∧
      o.observedAt ≤ c.observedAt ∧ managedInitialDelta c incomplete = .ok first ∧
      r = some (gapOf old c ++ first)) := by
  cases old with
  | none =>
    simp only [meterCounter, bind_eq_ok, pure_eq_ok] at h
    obtain ⟨first, hfirst, rfl⟩ := h
    exact .inl ⟨rfl, first, rfl, hfirst⟩
  | some o =>
    simp only [meterCounter] at h
    split_ifs at h with hclosed hold hclock hrun hreg hjump hbytes hgap
    · exact .inr (.inl ⟨⟨o, rfl, hclosed⟩, (Except.ok.inj h).symm⟩)
    · refine .inr (.inr (.inl ⟨o, rfl, ?_, hrun, by omega, by omega, by omega, .inr ⟨hbytes, ?_, ?_⟩⟩))
      · rintro ⟨_, ⟨⟩, hst⟩; exact hclosed hst
      · by_contra hlt; exact hjump (.inl ⟨by omega, hbytes⟩)
      · exact (Except.ok.inj h).symm
    · refine .inr (.inr (.inl ⟨o, rfl, ?_, hrun, by omega, by omega, by omega, .inl ⟨?_, ?_, ?_⟩⟩))
      · rintro ⟨_, ⟨⟩, hst⟩; exact hclosed hst
      · by_contra hne; exact hbytes (.inl hne)
      · by_contra hne; exact hbytes (.inr hne)
      · exact (Except.ok.inj h).symm
    · simp only [bind_eq_ok, pure_eq_ok] at h
      obtain ⟨first, hfirst, rfl⟩ := h
      refine .inr (.inr (.inr ⟨o, first, _, rfl, hrun, by omega, hfirst, ?_⟩))
      simp only [gapOf, if_pos (And.intro hrun hgap)]
    · simp only [bind_eq_ok, pure_eq_ok] at h
      obtain ⟨first, hfirst, rfl⟩ := h
      refine .inr (.inr (.inr ⟨o, first, _, rfl, hrun, by omega, hfirst, ?_⟩))
      simp only [gapOf, if_neg fun hg : _ ∧ _ => hgap hg.2]

/-- A sample is skipped exactly when it is stale. -/
theorem isSome_iff_not_stale {old : Option CursorRow} {c : Counter} {r : Option (List Delta)}
    (h : meterCounter old c = .ok r) : r.isSome ↔ ¬ stale old c := by
  rcases meterCounter_cases h with ⟨rfl, first, rfl, -⟩ | ⟨hst, rfl⟩ |
    ⟨o, rfl, hst, -, -, -, -, h⟩ | ⟨o, first, _, rfl, hne, -, -, rfl⟩
  · simp [stale]
  · simp [hst]
  · rcases h with ⟨-, -, rfl⟩ | ⟨-, -, rfl⟩ <;> simp [hst]
  · simp only [Option.isSome_some, true_iff]
    rintro ⟨o', ⟨⟩, -, heq, -⟩
    exact hne heq

/-! ## One sample -/

/-- What the body of the sampling loop does when it does not stop the call. -/
theorem recordCounter_spec {streamID : String} {tx tx' : SampleTx} {c : Counter}
    (h : recordCounter streamID tx c = .ok tx') :
    ¬ badCounter tx.seen c ∧ (tx.runtimeID = "" ∨ c.runtimeID = tx.runtimeID) ∧
    ∃ r, meterCounter (tx.cursors.get? (cursorID streamID c.userID)) c = .ok r ∧
      tx' = { cursors := if r.isSome then
                tx.cursors.set (cursorID streamID c.userID) (cursorOf c) else tx.cursors
              deltas := tx.deltas ++ r.getD []
              seen := c.userID :: tx.seen
              runtimeID := c.runtimeID } := by
  simp only [recordCounter, bind_eq_ok, failIf_eq_ok, not_not, exists_const] at h
  obtain ⟨hrun, hgood, r, hr, h⟩ := h
  refine ⟨hgood, ?_, r, hr, ?_⟩
  · split_ifs at hrun with hempty
    · exact .inl hempty
    · exact .inr hrun
  · cases r with
    | none => simp only [pure_eq_ok] at h; simp [← h, ← hrun]
    | some ds => simp only [pure_eq_ok] at h; simp [← h, ← hrun]

/-- The body of the loop goes on when the counter is well formed and can be compared. -/
theorem recordCounter_ok {streamID : String} {tx : SampleTx} {c : Counter}
    {r : Option (List Delta)} (hrun : tx.runtimeID = "" ∨ c.runtimeID = tx.runtimeID)
    (hgood : ¬ badCounter tx.seen c)
    (hr : meterCounter (tx.cursors.get? (cursorID streamID c.userID)) c = .ok r) :
    ∃ tx', recordCounter streamID tx c = .ok tx' ∧
      tx'.cursors = (if r.isSome then tx.cursors.set (cursorID streamID c.userID) (cursorOf c)
        else tx.cursors) ∧
      tx'.seen = c.userID :: tx.seen ∧ tx'.runtimeID = c.runtimeID := by
  have hid : c.runtimeID = if tx.runtimeID = "" then c.runtimeID else tx.runtimeID := by
    rcases hrun with h | h
    · simp [h]
    · split_ifs <;> [rfl; exact h]
  cases h : recordCounter streamID tx c with
  | ok tx' =>
    obtain ⟨-, -, r', hr', rfl⟩ := recordCounter_spec h
    obtain rfl : r' = r := Except.ok.inj (hr'.symm.trans hr)
    exact ⟨_, rfl, rfl, rfl, rfl⟩
  | error e =>
    simp only [recordCounter, bind_eq_error, failIf_eq_error, failIf_eq_ok, not_not,
      exists_const, hr, reduceCtorEq, Except.ok.injEq, false_or] at h
    rcases h with ⟨hne, -⟩ | ⟨-, ⟨hbad, -⟩ | ⟨-, _, rfl, h⟩⟩
    · exact absurd hid hne
    · exact absurd hbad hgood
    · cases r <;> simp at h

/-! ## The outbox -/

/-- The outbox rows of consecutive messages. -/
def outboxRows (streamID : String) : Int → List UsageBatch → List (String × BatchRow)
  | _, [] => []
  | seq, m :: ms => (batchID streamID seq, batchRow streamID seq m) :: outboxRows streamID (seq + 1) ms

/-- The appending loop adds one row per message, under consecutive numbers. -/
theorem foldlM_appendBatch {streamID : String} {nextSeq : Int} {tx out : AppendTx}
    {ms : List UsageBatch} (h : ms.foldlM (appendBatch streamID nextSeq) tx = .ok out) :
    out.batches.rows = tx.batches.rows ++ outboxRows streamID (nextSeq + tx.index) ms := by
  induction ms generalizing tx with
  | nil => simp only [List.foldlM_nil, pure_eq_ok] at h; simp [← h, outboxRows]
  | cons m ms ih =>
    simp only [List.foldlM_cons, bind_eq_ok] at h
    obtain ⟨tx', hm, hrest⟩ := h
    simp only [appendBatch, bind_eq_ok, failIf_eq_ok, found_eq_ok, pure_eq_ok, exists_const] at hm
    obtain ⟨-, -, batches, hins, rfl⟩ := hm
    obtain ⟨hfree, rfl⟩ := Table.insert?_eq_some.1 hins
    rw [ih hrest, Table.rows_set_of_get?_eq_none hfree, outboxRows, List.append_assoc,
      Nat.cast_succ, add_assoc]
    rfl

theorem openStream_eq_ok {streamID : String} {streams streams' : Table String StreamRow}
    {st : StreamRow} (h : openStream streamID streams = .ok (st, streams')) :
    st = (streams.get? streamID).getD {} ∧ streams'.get? streamID = some st ∧
      ∀ t, t ≠ streamID → streams'.get? t = streams.get? t := by
  unfold openStream at h
  cases hs : streams.get? streamID with
  | some st' =>
    simp only [hs, Except.ok.injEq, Prod.mk.injEq] at h
    obtain ⟨rfl, rfl⟩ := h
    exact ⟨rfl, hs, fun _ _ => rfl⟩
  | none =>
    simp only [hs] at h
    split_ifs at h
    simp only [Except.ok.injEq, Prod.mk.injEq] at h
    obtain ⟨rfl, rfl⟩ := h
    exact ⟨rfl, Table.get?_set_self _ _ _, fun t ht => Table.get?_set_of_ne _ _ ht⟩

/-- The stream row a sample starts from. -/
def streamOf (streamID : String) (s : Store) : StreamRow := (s.streams.get? streamID).getD {}

/-- The messages a sample writes. -/
def sampleMessages (streamID : String) (counters : List Counter) (s : Store) : List UsageBatch :=
  match recordCounters streamID s.cursors counters with
  | .ok tx => batchDeltas tx.runtimeID tx.deltas
  | .error _ => []

/-- What `RecordSample` does when it answers: the loop's cursors are stored, the messages are
appended to the outbox under the next numbers, and only the stream's own row moves. -/
theorem recordSample_spec {streamID : String} {counters : List Counter} {s s' : Store}
    {first : Option Batch} (h : recordSample streamID counters s = .ok (first, s')) :
    (∃ tx, recordCounters streamID s.cursors counters = .ok tx ∧ s'.cursors = tx.cursors) ∧
    s'.batches.rows = s.batches.rows ++
      outboxRows streamID (streamOf streamID s).nextSeq (sampleMessages streamID counters s) ∧
    (∃ st, s'.streams.get? streamID = some st ∧
      st.nextSeq = (streamOf streamID s).nextSeq + (sampleMessages streamID counters s).length ∧
      st.committedSeq = (streamOf streamID s).committedSeq ∧
      st.recoveryIssue = (streamOf streamID s).recoveryIssue) ∧
    ∀ t, t ≠ streamID → s'.streams.get? t = s.streams.get? t := by
  simp only [recordSample, bind_eq_ok, pure_eq_ok, Prod.mk.injEq] at h
  obtain ⟨⟨st, streams⟩, hopen, tx, htx, out, hout, -, rfl⟩ := h
  obtain ⟨hst, hget, hother⟩ := openStream_eq_ok hopen
  have hmsg : sampleMessages streamID counters s = batchDeltas tx.runtimeID tx.deltas := by
    simp [sampleMessages, htx]
  have hrow : streamOf streamID s = st := hst.symm
  refine ⟨⟨tx, htx, rfl⟩, ?_, ?_, ?_⟩
  · simpa [hmsg, hrow] using foldlM_appendBatch hout
  · by_cases hlen : (batchDeltas tx.runtimeID tx.deltas).length > 0
    · simp only [hlen, if_true, Table.get?_set_self, hmsg, hrow]
      exact ⟨_, rfl, rfl, rfl, rfl⟩
    · have h0 : (batchDeltas tx.runtimeID tx.deltas).length = 0 := by omega
      simp only [hmsg, hrow, h0, Nat.cast_zero, add_zero]
      exact ⟨st, hget, rfl, rfl, rfl⟩
  · intro t ht
    by_cases hlen : (batchDeltas tx.runtimeID tx.deltas).length > 0
    · simp only [hlen, if_true, Table.get?_set_of_ne _ _ ht, hother t ht]
    · simp only [hlen, if_false, hother t ht]

end Bifurcation.Daemon
