import Bifurcation.Daemon.Outbox
import Bifurcation.Panel.Ledger

/-!
# Usage delivery

One stream of a daemon, the usage tables of the panel, and the requests and answers between them.
`flushUsage` of `internal/panelclient/usage.go` sends the oldest stored batch, waits for its
answer and acknowledges what the panel committed. A call that fails, or a crash, ends the wait.

**Messages.** Every request and every answer ever sent stays in its list and may arrive any
number of times, in any order, or never; an answer belongs to its request. The panel may refuse a
request for any reason of its own.

**The rest.** Samples are recorded at any time, and other streams of the store and other calls of
the panel happen beside. Only this daemon reports under its machine, installation and stream.

**The invariant** (`Delivers`). The rows of the stream are numbered like its messages, every
request conveys the message of its number, which is at most the next one the panel expects, and
the batches the panel applied are the first messages in their order.

Main results: `usage_delivered_once` and `usage_resynchronised`.
-/

namespace Bifurcation.Delivery

open Daemon (Batch BatchRow Metering OutboxInv Store UsageEvent batchID batchRow mem_numbers
  nextBatch outboxRows rowsOf rowsOf_acknowledged rowsOf_append sampleMessages usageRecoveryIssue)
open Panel (Agrees Codec Ledger MachineRow UsageCall UsageStreamKey Vault checkRequest committedOf
  reportUsage)

/-! ## The system -/

/-- The messages ever written to the outbox of a stream. -/
def messagesOf (streamID : String) (m : Metering) : List UsageBatch :=
  (m.written.filter fun x => x.1 = streamID).map Prod.snd

structure UsageWorld where
  metering : Metering
  ledger : Ledger
  /-- The batch whose answer `flushUsage` waits for. -/
  waiting : Option Batch
  requests : List ReportUsageRequest
  answers : List (ReportUsageRequest × ReportUsageResponse)

inductive UsageMove where
  | store (event : UsageEvent)
  | send
  | serve (vault : Vault) (fresh : String → String) (row : MachineRow)
      (request : ReportUsageRequest) (now : Int)
  | receive (answer : ReportUsageRequest × ReportUsageResponse)
  | giveUp
  | crash
  | panel (call : UsageCall)

/-- The request for a batch. -/
def usageRequest (installation : Installation) (batch : Batch) : ReportUsageRequest :=
  ⟨some installation, batch.streamID, batch.seq, batch.payload, batch.hash⟩

/-- What `flushUsage` does with an answer. -/
def handled (batch : Batch) (response : ReportUsageResponse) : UsageEvent :=
  if response.committedSequence < batch.seq then
    .requireUsageRecovery batch.streamID
      ("Usage stream requires recovery: panel expects " ++ toString response.expectedSequence ++
        ", earliest retained sequence is " ++ toString batch.seq)
  else .acknowledgeUsage batch.streamID response.committedSequence

/-- What happens to the store beside the flush of a stream. -/
def besides (streamID : String) : UsageEvent → Bool
  | .recordSample _ _ => true
  | .acknowledgeUsage id _ => id ≠ streamID
  | .requireUsageRecovery id _ => id ≠ streamID

/-- A call that is no report under a key. -/
def elsewhere (key : UsageStreamKey) : UsageCall → Bool
  | .report _ _ id row request _ => Panel.streamOf id row request ≠ key
  | .clean _ => true
  | .other _ => true

section System

variable (codec : Codec) (machineId : String) (installation : Installation) (streamID : String)

/-- The key of the stream at the panel. -/
def usageKey : UsageStreamKey := ⟨machineId, installation.installationId, streamID⟩

def UsageWorld.step (w : UsageWorld) : UsageMove → UsageWorld
  | .store event =>
    if besides streamID event = true then { w with metering := w.metering.step event } else w
  | .send =>
    if w.waiting.isNone ∧ usageRecoveryIssue streamID w.metering.store = "" then
      match nextBatch streamID w.metering.store with
      | none => w
      | some batch =>
        { w with
          waiting := some batch
          requests := w.requests ++ [usageRequest installation batch] }
    else w
  | .serve vault fresh row request now =>
    if request ∈ w.requests then
      let ledger := w.ledger.step codec (.report vault fresh machineId row request now)
      match reportUsage vault fresh codec machineId row request now w.ledger.db with
      | .error _ => { w with ledger }
      | .ok (response, _) => { w with ledger, answers := w.answers ++ [(request, response)] }
    else w
  | .receive answer =>
    match w.waiting with
    | none => w
    | some batch =>
      if answer ∈ w.answers ∧ answer.1 = usageRequest installation batch then
        { w with waiting := none, metering := w.metering.step (handled batch answer.2) }
      else w
  | .giveUp => { w with waiting := none }
  | .crash => { w with waiting := none }
  | .panel call =>
    if elsewhere (usageKey machineId installation streamID) call = true then
      { w with ledger := w.ledger.step codec call }
    else w

def UsageWorld.start : UsageWorld := ⟨⟨.empty, [], []⟩, ⟨.empty, [], []⟩, none, [], []⟩

def UsageWorld.run (moves : List UsageMove) : UsageWorld :=
  moves.foldl (UsageWorld.step codec machineId installation streamID) .start

end System

/-! ## The daemon -/

theorem getElem?_of_prefix {α : Type} {l l' : List α} {i : ℕ} {a : α} (h : l <+: l')
    (ha : l[i]? = some a) : l'[i]? = some a := by
  obtain ⟨rest, rfl⟩ := h
  rw [List.getElem?_append_left (List.getElem?_eq_some_iff.1 ha).1, ha]

/-- The rows of a stream carry its messages, under their numbers. -/
structure Numbered (streamID : String) (m : Metering) : Prop where
  outbox : OutboxInv m.store
  next : (Daemon.streamOf streamID m.store).nextSeq = (messagesOf streamID m).length + 1
  rows : ∀ row ∈ rowsOf streamID m.store, ∃ message,
    (messagesOf streamID m)[(row.seq - 1).toNat]? = some message ∧ row.payload = message.marshal

section Store

variable {streamID : String} {m : Metering}

/-- The row of a message has its number. -/
theorem exists_message {seq : Int} {ms : List UsageBatch} {x : String × BatchRow}
    (h : x ∈ outboxRows streamID seq ms) :
    ∃ (i : ℕ) (message : UsageBatch), ms[i]? = some message ∧
      x.2 = batchRow streamID (seq + i) message := by
  induction ms generalizing seq with
  | nil => cases h
  | cons message ms ih =>
    rcases List.mem_cons.1 h with rfl | h
    · exact ⟨0, message, rfl, by rw [Nat.cast_zero, add_zero]⟩
    · obtain ⟨i, message', hi, hrow⟩ := ih h
      refine ⟨i + 1, message', hi, ?_⟩
      rw [hrow, Nat.cast_add, Nat.cast_one, add_assoc, add_comm 1]

theorem store_step (m : Metering) (event : UsageEvent) :
    (m.step event).store = m.store.step event := by
  cases event with
  | recordSample t counters =>
    simp only [Metering.step, Store.step, Store.call]
    cases Daemon.recordSample t counters m.store with
    | error e => rfl
    | ok result => rfl
  | acknowledgeUsage t seq =>
    simp only [Metering.step, Store.step, Store.call]
    cases Daemon.acknowledgeUsage t seq m.store with
    | error e => rfl
    | ok s => rfl
  | requireUsageRecovery t message =>
    simp only [Metering.step, Store.step, Store.call]
    cases Daemon.requireUsageRecovery t message m.store with
    | error e => rfl
    | ok s => rfl

theorem messagesOf_sampled (s : Store) (samples : List Daemon.Sample) (t : String)
    (ms : List UsageBatch) :
    messagesOf streamID ⟨s, samples, m.written ++ ms.map fun message => (t, message)⟩ =
      messagesOf streamID m ++ if t = streamID then ms else [] := by
  rw [messagesOf, List.filter_append, List.map_append, messagesOf]
  refine congrArg _ ?_
  by_cases ht : t = streamID
  · rw [if_pos ht, List.filter_eq_self.2, List.map_map]
    · exact List.map_id ms
    · intro x hx
      obtain ⟨message, -, rfl⟩ := List.mem_map.1 hx
      exact decide_eq_true ht
  · rw [if_neg ht, List.filter_eq_nil_iff.2, List.map_nil]
    intro x hx
    obtain ⟨message, -, rfl⟩ := List.mem_map.1 hx
    simpa using ht

/-- **What an event does to a stream**: it appends the messages of a sample, or it writes none and
keeps a part of the rows. -/
theorem messagesOf_step (streamID : String) (m : Metering) (event : UsageEvent) :
    (∃ counters first s', event = .recordSample streamID counters ∧
      Daemon.recordSample streamID counters m.store = .ok (first, s') ∧
      (m.step event).store = s' ∧
      messagesOf streamID (m.step event) =
        messagesOf streamID m ++ sampleMessages streamID counters m.store) ∨
    messagesOf streamID (m.step event) = messagesOf streamID m ∧
      (OutboxInv m.store → (Daemon.streamOf streamID (m.step event).store).nextSeq =
        (Daemon.streamOf streamID m.store).nextSeq ∧
        ∀ row ∈ rowsOf streamID (m.step event).store, row ∈ rowsOf streamID m.store) := by
  by_cases hstream : event.streamID = streamID
  · cases event with
    | recordSample t counters =>
      obtain rfl : t = streamID := hstream
      cases hcall : Daemon.recordSample t counters m.store with
      | error e =>
        have hstep : m.step (.recordSample t counters) = m := by simp only [Metering.step, hcall]
        right
        rw [hstep]
        exact ⟨rfl, fun _ => ⟨rfl, fun _ h => h⟩⟩
      | ok result =>
        obtain ⟨first, s'⟩ := result
        left
        refine ⟨counters, first, s', rfl, hcall, ?_, ?_⟩
        · simp only [Metering.step, hcall]
        · simp only [Metering.step, hcall]
          rw [messagesOf_sampled, if_pos rfl]
    | acknowledgeUsage t seq =>
      obtain rfl : t = streamID := hstream
      right
      cases hcall : Daemon.acknowledgeUsage t seq m.store with
      | error e =>
        have hstep : m.step (.acknowledgeUsage t seq) = m := by simp only [Metering.step, hcall]
        rw [hstep]
        exact ⟨rfl, fun _ => ⟨rfl, fun _ h => h⟩⟩
      | ok s' =>
        obtain ⟨st, hst, -, -, -, hbatches, hstreams⟩ := Daemon.acknowledgeUsage_eq_ok hcall
        simp only [Metering.step, hcall]
        refine ⟨rfl, fun _ => ⟨?_, fun row hrow => ?_⟩⟩
        · rw [Daemon.streamOf, hstreams, Table.get?_set_self, Daemon.streamOf, hst]
          rfl
        · rw [rowsOf_acknowledged hbatches, if_pos rfl] at hrow
          exact List.mem_of_mem_filter hrow
    | requireUsageRecovery t message =>
      obtain rfl : t = streamID := hstream
      right
      cases hcall : Daemon.requireUsageRecovery t message m.store with
      | error e =>
        have hstep : m.step (.requireUsageRecovery t message) = m := by
          simp only [Metering.step, hcall]
        rw [hstep]
        exact ⟨rfl, fun _ => ⟨rfl, fun _ h => h⟩⟩
      | ok s' =>
        have hstored := hcall
        simp only [Daemon.requireUsageRecovery, bind_eq_ok, found_eq_ok, pure_eq_ok] at hcall
        obtain ⟨st, hst, rfl⟩ := hcall
        simp only [Metering.step, hstored]
        refine ⟨rfl, fun _ => ⟨?_, fun _ h => h⟩⟩
        rw [Daemon.streamOf, Table.get?_set_self, Daemon.streamOf, hst]
        rfl
  · right
    refine ⟨?_, fun houtbox => ?_⟩
    · cases event with
      | recordSample t counters =>
        simp only [Metering.step]
        cases Daemon.recordSample t counters m.store with
        | error e => rfl
        | ok result =>
          have ht : t ≠ streamID := hstream
          dsimp only
          rw [messagesOf_sampled, if_neg ht, List.append_nil]
      | acknowledgeUsage t seq =>
        simp only [Metering.step]
        cases Daemon.acknowledgeUsage t seq m.store with
        | error e => rfl
        | ok s => rfl
      | requireUsageRecovery t message =>
        simp only [Metering.step]
        cases Daemon.requireUsageRecovery t message m.store with
        | error e => rfl
        | ok s => rfl
    · have hsame := (houtbox.step event).2 streamID (Ne.symm hstream)
      rw [store_step, Daemon.streamOf, hsame.row, hsame.batches]
      exact ⟨rfl, fun _ h => h⟩

/-- Every event keeps the numbers, and messages are only added. -/
theorem Numbered.step (h : Numbered streamID m) (event : UsageEvent) :
    Numbered streamID (m.step event) ∧
      messagesOf streamID m <+: messagesOf streamID (m.step event) := by
  have houtbox : OutboxInv (m.step event).store := by
    rw [store_step]
    exact (h.outbox.step event).1
  rcases messagesOf_step streamID m event with
    ⟨counters, first, s', -, hcall, hstore, hmessages⟩ | ⟨hmessages, hkept⟩
  · obtain ⟨-, hrows, ⟨st, hst, hnext, -, -⟩, -⟩ := Daemon.recordSample_spec hcall
    have hof := rowsOf_append hrows (fun x hx => (Daemon.mem_outboxRows hx).2) streamID
    rw [if_pos rfl] at hof
    refine ⟨⟨houtbox, ?_, fun row hrow => ?_⟩, hmessages ▸ List.prefix_append _ _⟩
    · rw [hstore, Daemon.streamOf, hst, Option.getD_some, hnext, h.next, hmessages,
        List.length_append]
      push_cast
      ring
    · rw [hstore, hof] at hrow
      rcases List.mem_append.1 hrow with hrow | hrow
      · obtain ⟨message, hmessage, hpayload⟩ := h.rows row hrow
        exact ⟨message, getElem?_of_prefix (hmessages ▸ List.prefix_append _ _) hmessage, hpayload⟩
      · obtain ⟨x, hx, rfl⟩ := List.mem_map.1 hrow
        obtain ⟨i, message, hmessage, hrow'⟩ := exists_message hx
        refine ⟨message, ?_, by rw [hrow']; rfl⟩
        have hindex : (x.2.seq - 1).toNat = (messagesOf streamID m).length + i := by
          rw [hrow', batchRow, h.next]
          dsimp only
          omega
        rw [hindex, hmessages, List.getElem?_append_right (Nat.le_add_right _ _),
          Nat.add_sub_cancel_left, hmessage]
  · obtain ⟨hnext, hrows⟩ := hkept h.outbox
    refine ⟨⟨houtbox, ?_, fun row hrow => ?_⟩, hmessages ▸ List.prefix_refl _⟩
    · rw [hnext, h.next, hmessages]
    · rw [hmessages]
      exact h.rows row (hrows row hrow)

/-- Beside the flush the cursor of the stream stays, and so does its recovery. -/
theorem streamOf_besides (h : Numbered streamID m) {event : UsageEvent}
    (hevent : besides streamID event = true) :
    (Daemon.streamOf streamID (m.step event).store).committedSeq =
        (Daemon.streamOf streamID m.store).committedSeq ∧
      (Daemon.streamOf streamID (m.step event).store).recoveryIssue =
        (Daemon.streamOf streamID m.store).recoveryIssue := by
  by_cases hstream : event.streamID = streamID
  · cases event with
    | recordSample t counters =>
      obtain rfl : t = streamID := hstream
      cases hcall : Daemon.recordSample t counters m.store with
      | error e =>
        simp only [Metering.step, hcall, and_self]
      | ok result =>
        obtain ⟨first, s'⟩ := result
        obtain ⟨-, -, ⟨st, hst, -, hcommitted, hrecovery⟩, -⟩ := Daemon.recordSample_spec hcall
        simp only [Metering.step, hcall]
        rw [Daemon.streamOf, hst, Option.getD_some]
        exact ⟨hcommitted, hrecovery⟩
    | acknowledgeUsage t seq => exact absurd hstream (of_decide_eq_true hevent)
    | requireUsageRecovery t message => exact absurd hstream (of_decide_eq_true hevent)
  · have hsame := (h.outbox.step event).2 streamID (Ne.symm hstream)
    rw [store_step, Daemon.streamOf, hsame.row]
    exact ⟨rfl, rfl⟩

/-- An acknowledgement moves the cursor of its stream there, or fails. -/
theorem streamOf_acknowledged (streamID : String) (m : Metering) (seq : Int) :
    (Daemon.streamOf streamID (m.step (.acknowledgeUsage streamID seq)).store).recoveryIssue =
        (Daemon.streamOf streamID m.store).recoveryIssue ∧
      ((Daemon.streamOf streamID (m.step (.acknowledgeUsage streamID seq)).store).committedSeq =
          (Daemon.streamOf streamID m.store).committedSeq ∨
        (Daemon.streamOf streamID (m.step (.acknowledgeUsage streamID seq)).store).committedSeq =
          seq) := by
  cases hcall : Daemon.acknowledgeUsage streamID seq m.store with
  | error e =>
    have hstep : m.step (.acknowledgeUsage streamID seq) = m := by
      simp only [Metering.step, hcall]
    rw [hstep]
    exact ⟨rfl, .inl rfl⟩
  | ok s' =>
    obtain ⟨st, hst, -, -, -, -, hstreams⟩ := Daemon.acknowledgeUsage_eq_ok hcall
    have hold : Daemon.streamOf streamID m.store = st := by
      rw [Daemon.streamOf, hst, Option.getD_some]
    simp only [Metering.step, hcall]
    rw [hold, Daemon.streamOf, hstreams, Table.get?_set_self, Option.getD_some]
    exact ⟨rfl, .inr rfl⟩

/-- The batch that is sent is the row after the cursor. -/
theorem Numbered.oldest (h : Numbered streamID m) {batch : Batch}
    (hnext : nextBatch streamID m.store = some batch) :
    ∃ stored ∈ rowsOf streamID m.store, stored.streamID = streamID ∧
      stored.seq = (Daemon.streamOf streamID m.store).committedSeq + 1 ∧
      batch = ⟨stored.seq, stored.streamID, stored.payloadHash, stored.payload⟩ := by
  rw [Daemon.nextBatch_eq h.outbox] at hnext
  obtain ⟨stored, hhead, rfl⟩ := Option.map_eq_some_iff.1 hnext
  have hstored := List.mem_of_head? hhead
  refine ⟨stored, hstored, (Daemon.mem_rowsOf.1 hstored).1, ?_, rfl⟩
  have hfirst : ((rowsOf streamID m.store).map BatchRow.seq).head? = some stored.seq := by
    rw [List.head?_map, hhead]
    rfl
  rw [(h.outbox.streams streamID).sequences] at hfirst
  generalize ((Daemon.streamOf streamID m.store).nextSeq -
    ((Daemon.streamOf streamID m.store).committedSeq + 1)).toNat = n at hfirst
  cases n with
  | zero => cases hfirst
  | succ n => exact (Option.some.inj hfirst).symm

theorem usageRecoveryIssue_eq (streamID : String) (s : Store) :
    usageRecoveryIssue streamID s = (Daemon.streamOf streamID s).recoveryIssue := by
  rw [usageRecoveryIssue, Daemon.streamOf]
  cases s.streams.get? streamID with
  | none => rfl
  | some row => rfl

/-- A message is stored until it is acknowledged. -/
theorem Numbered.stored (h : Numbered streamID m) {i : ℕ} {message : UsageBatch}
    (hmessage : (messagesOf streamID m)[i]? = some message)
    (hlater : (Daemon.streamOf streamID m.store).committedSeq < i + 1) :
    ∃ row ∈ rowsOf streamID m.store, row.seq = i + 1 ∧ row.payload = message.marshal ∧
      row.payloadHash = sha256 message.marshal := by
  have hlength := (List.getElem?_eq_some_iff.1 hmessage).1
  have hnext := h.next
  have hmem : (i + 1 : Int) ∈ (rowsOf streamID m.store).map BatchRow.seq := by
    rw [(h.outbox.streams streamID).sequences, mem_numbers]
    omega
  obtain ⟨row, hrow, hseq⟩ := List.mem_map.1 hmem
  obtain ⟨message', hmessage', hpayload⟩ := h.rows row hrow
  have hindex : (row.seq - 1).toNat = i := by omega
  rw [hindex, hmessage] at hmessage'
  obtain rfl := Option.some.inj hmessage'
  exact ⟨row, hrow, hseq, hpayload, by rw [(h.outbox.stored hrow).2.1, hpayload]⟩

end Store

/-! ## The panel -/

section Panel

variable {codec : Codec} {machineId : String} {installation : Installation} {streamID : String}
  {ledger : Ledger}

/-- The identity that is asserted is the one of the request. -/
theorem assertInstallation_same {row : MachineRow} {identity : Installation}
    (h : Panel.assertInstallation row (some installation) false = .ok identity) :
    identity = installation := by
  simp only [Panel.assertInstallation, bind_eq_ok, found_eq_ok] at h
  obtain ⟨i, hi, epoch, -, h⟩ := h
  have hsame : installation = i := Option.some.inj (Option.filter_eq_some_iff.1 hi).1
  cases hrow : row.installationId with
  | none => simp [hrow] at h
  | some installed =>
    simp only [hrow, bind_eq_ok, pure_eq_ok] at h
    obtain ⟨_, -, _, -, rfl⟩ := h
    exact hsame.symm

theorem committedOf_congr {key : UsageStreamKey} {db db' : Panel.Database}
    (h : db'.usageStreams.get? key = db.usageStreams.get? key) :
    committedOf key db' = committedOf key db := by
  rw [committedOf, h, committedOf]

/-- Calls elsewhere leave the stream alone. -/
theorem ledger_elsewhere {key : UsageStreamKey} {call : UsageCall}
    (h : elsewhere key call = true) :
    (ledger.step codec call).db.usageStreams.get? key = ledger.db.usageStreams.get? key ∧
      ((ledger.step codec call).applied.filter fun a => a.stream = key) =
        ledger.applied.filter fun a => a.stream = key := by
  cases call with
  | report vault fresh id row request now =>
    have hne : Panel.streamOf id row request ≠ key := of_decide_eq_true h
    rcases Panel.step_report codec ledger vault fresh id row request now with
      heq | ⟨-, -, db, batch, hcommitted, heq⟩
    · rw [heq]
      exact ⟨rfl, rfl⟩
    · rw [heq]
      refine ⟨?_, ?_⟩
      · dsimp only
        rw [hcommitted.streams, Table.get?_set_of_ne _ _ (Ne.symm hne)]
      · rw [List.filter_append, List.filter_cons_of_neg (by simpa using hne), List.filter_nil,
          List.append_nil]
  | clean now => exact ⟨rfl, rfl⟩
  | other db => exact ⟨rfl, rfl⟩

/-- **What the panel does with a request of the stream** that it does not refuse: it answers with
its cursor, or it commits the next sequence. -/
theorem ledger_served {vault : Vault} {fresh : String → String} {row : MachineRow}
    {request : ReportUsageRequest} {now : Int} {response : ReportUsageResponse}
    {db' : Panel.Database} (hinstallation : request.installation = some installation)
    (hstream : request.streamId = streamID)
    (h : reportUsage vault fresh codec machineId row request now ledger.db = .ok (response, db')) :
    ((ledger.step codec (.report vault fresh machineId row request now)).db = ledger.db ∧
      (ledger.step codec (.report vault fresh machineId row request now)).applied =
        ledger.applied ∧
      response.committedSequence =
        committedOf (usageKey machineId installation streamID) ledger.db ∧
      request.sequence ≠ committedOf (usageKey machineId installation streamID) ledger.db + 1) ∨
    (request.sequence = committedOf (usageKey machineId installation streamID) ledger.db + 1 ∧
      response.committedSequence = request.sequence ∧
      (ledger.step codec (.report vault fresh machineId row request now)).db.usageStreams =
        ledger.db.usageStreams.set (usageKey machineId installation streamID)
          ⟨request.sequence, request.payloadSha256, now⟩ ∧
      ∃ batch, codec.usageBatchFromBinary request.payload = some batch ∧
        (ledger.step codec (.report vault fresh machineId row request now)).applied =
          ledger.applied ++
            [⟨usageKey machineId installation streamID, request.sequence, batch⟩]) := by
  obtain ⟨identity, hidentity, -, hcases⟩ := Panel.reportUsage_eq_ok h
  have hrow := (Panel.assertInstallation_eq_ok hidentity).1
  rw [hinstallation] at hidentity
  obtain rfl := assertInstallation_same hidentity
  have hkey : Panel.streamOf machineId row request = usageKey machineId identity streamID := by
    rw [Panel.streamOf, hrow, Option.getD_some, hstream, usageKey]
  rw [hstream] at hcases
  simp only [Ledger.step, h]
  rw [hkey]
  rcases hcases with ⟨rfl, rfl, hne, -⟩ | ⟨rfl, batch, hcommitted⟩
  · left
    refine ⟨rfl, ?_, rfl, hne⟩
    exact if_neg hne
  · right
    refine ⟨hcommitted.next, rfl, hcommitted.streams, batch, hcommitted.decoded, ?_⟩
    rw [hcommitted.decoded]
    exact if_pos hcommitted.next

end Panel

/-! ## The invariant -/

/-- A request of the stream carries the message of its number. -/
structure Conveys (installation : Installation) (streamID : String) (messages : List UsageBatch)
    (request : ReportUsageRequest) : Prop where
  installation : request.installation = some installation
  stream : request.streamId = streamID
  positive : 1 ≤ request.sequence
  message : ∃ message, messages[(request.sequence - 1).toNat]? = some message ∧
    request.payload = message.marshal ∧ request.payloadSha256 = sha256 message.marshal

theorem Conveys.mono {installation : Installation} {streamID : String}
    {messages messages' : List UsageBatch} {request : ReportUsageRequest}
    (h : Conveys installation streamID messages request) (hgrows : messages <+: messages') :
    Conveys installation streamID messages' request := by
  obtain ⟨message, hmessage, hpayload, hhash⟩ := h.message
  exact ⟨h.installation, h.stream, h.positive,
    ⟨message, getElem?_of_prefix hgrows hmessage, hpayload, hhash⟩⟩

section Invariant

variable (codec : Codec) (machineId : String) (installation : Installation) (streamID : String)

/-- The last sequence of the stream that the panel has committed. -/
def UsageWorld.committed (w : UsageWorld) : Int :=
  committedOf (usageKey machineId installation streamID) w.ledger.db

/-- The batches of the stream that the panel has applied. -/
def UsageWorld.applied (w : UsageWorld) : List Panel.Applied :=
  w.ledger.applied.filter fun a => a.stream = usageKey machineId installation streamID

/-- **The invariant of the delivery.** -/
structure Delivers (w : UsageWorld) : Prop where
  numbered : Numbered streamID w.metering
  recovery : (Daemon.streamOf streamID w.metering.store).recoveryIssue = ""
  agrees : Agrees w.ledger
  acknowledged : (Daemon.streamOf streamID w.metering.store).committedSeq ≤
    w.committed machineId installation streamID
  committed : w.committed machineId installation streamID ≤
    (messagesOf streamID w.metering).length
  waiting : ∀ batch, w.waiting = some batch → batch.streamID = streamID
  requests : ∀ request ∈ w.requests,
    Conveys installation streamID (messagesOf streamID w.metering) request ∧
      request.sequence ≤ w.committed machineId installation streamID + 1
  answers : ∀ answer ∈ w.answers, answer.1.sequence ≤ answer.2.committedSequence ∧
    answer.2.committedSequence ≤ w.committed machineId installation streamID
  hash : 1 ≤ w.committed machineId installation streamID → ∃ message,
    (messagesOf streamID w.metering)[(w.committed machineId installation streamID - 1).toNat]? =
      some message ∧
    (w.ledger.db.usageStreams.get? (usageKey machineId installation streamID)).map
      (·.lastPayloadHash) = some (sha256 message.marshal)
  applied : ∀ (i : ℕ) (a : Panel.Applied),
    (w.applied machineId installation streamID)[i]? = some a → ∃ message,
      (messagesOf streamID w.metering)[i]? = some message ∧
      codec.usageBatchFromBinary message.marshal = some a.batch

end Invariant

section Preservation

variable {codec : Codec} {machineId : String} {installation : Installation} {streamID : String}
  {w : UsageWorld}

theorem delivers_start : Delivers codec machineId installation streamID .start where
  numbered := ⟨Daemon.outboxInv_empty, rfl, fun row hrow => by cases hrow⟩
  recovery := rfl
  agrees := Panel.agrees_empty
  acknowledged := le_refl (0 : Int)
  committed := le_refl (0 : Int)
  waiting := fun batch h => by cases h
  requests := fun request h => by cases h
  answers := fun answer h => by cases h
  hash := fun h => absurd h (by decide : ¬ (1 : Int) ≤ 0)
  applied := fun i a h => by cases h

/-- The daemon moves: it adds messages, or acknowledges what is committed. -/
theorem Delivers.metered (h : Delivers codec machineId installation streamID w)
    {metering : Metering} {waiting : Option Batch} (hnumbered : Numbered streamID metering)
    (hgrows : messagesOf streamID w.metering <+: messagesOf streamID metering)
    (hrecovery : (Daemon.streamOf streamID metering.store).recoveryIssue = "")
    (hacknowledged : (Daemon.streamOf streamID metering.store).committedSeq ≤
      w.committed machineId installation streamID)
    (hwaiting : ∀ batch, waiting = some batch → batch.streamID = streamID) :
    Delivers codec machineId installation streamID { w with metering, waiting } where
  numbered := hnumbered
  recovery := hrecovery
  agrees := h.agrees
  acknowledged := hacknowledged
  committed := le_trans h.committed (by exact_mod_cast hgrows.length_le)
  waiting := hwaiting
  requests := fun request hrequest =>
    ⟨(h.requests request hrequest).1.mono hgrows, (h.requests request hrequest).2⟩
  answers := h.answers
  hash := fun hpositive => by
    obtain ⟨message, hmessage, hhash⟩ := h.hash hpositive
    exact ⟨message, getElem?_of_prefix hgrows hmessage, hhash⟩
  applied := fun i a ha => by
    obtain ⟨message, hmessage, hdecoded⟩ := h.applied i a ha
    exact ⟨message, getElem?_of_prefix hgrows hmessage, hdecoded⟩

/-- The panel changes elsewhere. -/
theorem Delivers.unchanged (h : Delivers codec machineId installation streamID w) {ledger : Ledger}
    (hagrees : Agrees ledger)
    (hget : ledger.db.usageStreams.get? (usageKey machineId installation streamID) =
      w.ledger.db.usageStreams.get? (usageKey machineId installation streamID))
    (happlied : (ledger.applied.filter fun a =>
      a.stream = usageKey machineId installation streamID) =
        w.applied machineId installation streamID) :
    Delivers codec machineId installation streamID { w with ledger } := by
  have hcommitted : UsageWorld.committed machineId installation streamID { w with ledger } =
      w.committed machineId installation streamID := committedOf_congr hget
  have hsame : UsageWorld.applied machineId installation streamID { w with ledger } =
      w.applied machineId installation streamID := happlied
  refine ⟨h.numbered, h.recovery, hagrees, ?_, ?_, h.waiting, ?_, ?_, ?_, ?_⟩
  · rw [hcommitted]
    exact h.acknowledged
  · rw [hcommitted]
    exact h.committed
  · rw [hcommitted]
    exact h.requests
  · rw [hcommitted]
    exact h.answers
  · rw [hcommitted]
    dsimp only
    rw [hget]
    exact h.hash
  · rw [hsame]
    exact h.applied

theorem Delivers.answered (h : Delivers codec machineId installation streamID w)
    {answer : ReportUsageRequest × ReportUsageResponse}
    (hcovers : answer.1.sequence ≤ answer.2.committedSequence)
    (hcommitted : answer.2.committedSequence ≤ w.committed machineId installation streamID) :
    Delivers codec machineId installation streamID
      { w with answers := w.answers ++ [answer] } := by
  refine ⟨h.numbered, h.recovery, h.agrees, h.acknowledged, h.committed, h.waiting, h.requests,
    fun a ha => ?_, h.hash, h.applied⟩
  rcases List.mem_append.1 ha with ha | ha
  · exact h.answers a ha
  · rw [List.mem_singleton.1 ha]
    exact ⟨hcovers, hcommitted⟩

/-- The oldest row is sent. -/
theorem Delivers.sent (h : Delivers codec machineId installation streamID w) {batch : Batch}
    (hnext : nextBatch streamID w.metering.store = some batch) :
    Delivers codec machineId installation streamID
      { w with
        waiting := some batch
        requests := w.requests ++ [usageRequest installation batch] } := by
  obtain ⟨row, hrow, hstream, hseq, rfl⟩ := h.numbered.oldest hnext
  obtain ⟨message, hmessage, hpayload⟩ := h.numbered.rows row hrow
  have hstored := h.numbered.outbox.stored hrow
  have hzero := (h.numbered.outbox.streams streamID).cursors.1
  have hacknowledged := h.acknowledged
  refine ⟨h.numbered, h.recovery, h.agrees, h.acknowledged, h.committed, ?_, fun request hmem => ?_,
    h.answers, h.hash, h.applied⟩
  · intro batch hbatch
    obtain rfl := Option.some.inj hbatch
    exact hstream
  · rcases List.mem_append.1 hmem with hmem | hmem
    · exact h.requests request hmem
    · obtain rfl := List.mem_singleton.1 hmem
      refine ⟨⟨rfl, hstream, ?_, message, hmessage, hpayload, ?_⟩, ?_⟩
      · show 1 ≤ row.seq
        omega
      · show row.payloadHash = sha256 message.marshal
        rw [hstored.2.1, hpayload]
      · show row.seq ≤ w.committed machineId installation streamID + 1
        omega

theorem length_applied (h : Delivers codec machineId installation streamID w) :
    (w.applied machineId installation streamID).length =
      (w.committed machineId installation streamID).toNat := by
  have hlength := congrArg List.length
    (h.agrees.sequences (usageKey machineId installation streamID)).2
  rwa [Panel.appliedSequences, List.length_map, List.length_map, List.length_range] at hlength

/-- The panel commits the request it expects. -/
theorem Delivers.commit (h : Delivers codec machineId installation streamID w)
    {request : ReportUsageRequest} {response : ReportUsageResponse} {ledger : Ledger} {now : Int}
    {batch : UsageBatch} (hrequest : request ∈ w.requests) (hagrees : Agrees ledger)
    (hnext : request.sequence = w.committed machineId installation streamID + 1)
    (hresponse : response.committedSequence = request.sequence)
    (hstreams : ledger.db.usageStreams =
      w.ledger.db.usageStreams.set (usageKey machineId installation streamID)
        ⟨request.sequence, request.payloadSha256, now⟩)
    (hdecoded : codec.usageBatchFromBinary request.payload = some batch)
    (happlied : ledger.applied = w.ledger.applied ++
      [⟨usageKey machineId installation streamID, request.sequence, batch⟩]) :
    Delivers codec machineId installation streamID
      { w with ledger, answers := w.answers ++ [(request, response)] } := by
  obtain ⟨hconveys, -⟩ := h.requests request hrequest
  obtain ⟨message, hmessage, hpayload, hhash⟩ := hconveys.message
  have hlength := (List.getElem?_eq_some_iff.1 hmessage).1
  have hpositive := hconveys.positive
  have hcommitted : UsageWorld.committed machineId installation streamID
      { w with ledger, answers := w.answers ++ [(request, response)] } = request.sequence := by
    rw [UsageWorld.committed, committedOf, hstreams, Table.get?_set_self]
    rfl
  have hsame : UsageWorld.applied machineId installation streamID
      { w with ledger, answers := w.answers ++ [(request, response)] } =
        w.applied machineId installation streamID ++
          [⟨usageKey machineId installation streamID, request.sequence, batch⟩] := by
    rw [UsageWorld.applied, happlied, List.filter_append, List.filter_cons_of_pos (by simp),
      List.filter_nil]
    rfl
  have hacknowledged := h.acknowledged
  refine ⟨h.numbered, h.recovery, hagrees, ?_, ?_, h.waiting, fun r hr => ?_, fun a ha => ?_,
    fun _ => ?_, fun i a ha => ?_⟩
  · rw [hcommitted]
    dsimp only
    omega
  · rw [hcommitted]
    dsimp only
    omega
  · rw [hcommitted]
    obtain ⟨hr, hle⟩ := h.requests r hr
    exact ⟨hr, by omega⟩
  · rw [hcommitted]
    rcases List.mem_append.1 ha with ha | ha
    · obtain ⟨hcovers, hle⟩ := h.answers a ha
      exact ⟨hcovers, by omega⟩
    · rw [List.mem_singleton.1 ha]
      exact ⟨hresponse.ge, hresponse.le⟩
  · rw [hcommitted]
    refine ⟨message, hmessage, ?_⟩
    dsimp only
    rw [hstreams, Table.get?_set_self, Option.map_some, hhash]
  · rw [hsame] at ha
    by_cases hi : i < (w.applied machineId installation streamID).length
    · rw [List.getElem?_append_left hi] at ha
      exact h.applied i a ha
    · rw [List.getElem?_append_right (not_lt.1 hi), List.getElem?_singleton] at ha
      split_ifs at ha with hlast
      obtain rfl := Option.some.inj ha
      have hindex : i = (request.sequence - 1).toNat := by
        have hcount := length_applied h
        rw [hnext, add_sub_cancel_right, ← hcount]
        omega
      exact ⟨message, by rw [hindex]; exact hmessage, by rw [← hpayload]; exact hdecoded⟩

/-- A request arrives, for the first time or again. -/
theorem Delivers.served (h : Delivers codec machineId installation streamID w) (vault : Vault)
    (fresh : String → String) (row : MachineRow) {request : ReportUsageRequest} (now : Int)
    (hrequest : request ∈ w.requests) : Delivers codec machineId installation streamID
      (w.step codec machineId installation streamID (.serve vault fresh row request now)) := by
  obtain ⟨hconveys, hle⟩ := h.requests request hrequest
  have hagrees : Agrees (w.ledger.step codec (.report vault fresh machineId row request now)) :=
    h.agrees.step _
  simp only [UsageWorld.step, if_pos hrequest]
  cases hcall : reportUsage vault fresh codec machineId row request now w.ledger.db with
  | error e =>
    refine h.unchanged hagrees ?_ ?_
    · simp only [Ledger.step, hcall]
    · simp only [Ledger.step, hcall]
      rfl
  | ok result =>
    obtain ⟨response, db'⟩ := result
    dsimp only
    rcases ledger_served hconveys.installation hconveys.stream hcall with
      ⟨hdb, happlied, hresponse, hne⟩ | ⟨hnext, hresponse, hstreams, batch, hdecoded, happlied⟩
    · refine Delivers.answered (h.unchanged hagrees (by rw [hdb]) (by rw [happlied]; rfl)) ?_ ?_
      · have hbound : request.sequence ≤
            committedOf (usageKey machineId installation streamID) w.ledger.db + 1 := hle
        dsimp only
        omega
      · rw [UsageWorld.committed]
        dsimp only
        rw [hdb, hresponse]
    · exact h.commit hrequest hagrees hnext hresponse hstreams hdecoded happlied

/-- An answer arrives: what it covers is committed, so it is acknowledged. -/
theorem Delivers.received (h : Delivers codec machineId installation streamID w) {batch : Batch}
    {answer : ReportUsageRequest × ReportUsageResponse} (hwaiting : w.waiting = some batch)
    (hanswer : answer ∈ w.answers) (hsame : answer.1 = usageRequest installation batch) :
    Delivers codec machineId installation streamID
      { w with waiting := none, metering := w.metering.step (handled batch answer.2) } := by
  obtain ⟨hcovers, hcommitted⟩ := h.answers answer hanswer
  have hseq : batch.seq ≤ answer.2.committedSequence := by
    rw [hsame] at hcovers
    exact hcovers
  have hhandled : handled batch answer.2 =
      .acknowledgeUsage streamID answer.2.committedSequence := by
    rw [handled, if_neg (not_lt.2 hseq), h.waiting batch hwaiting]
  rw [hhandled]
  obtain ⟨hnumbered, hgrows⟩ :=
    h.numbered.step (.acknowledgeUsage streamID answer.2.committedSequence)
  obtain ⟨hrecovery, hcursor⟩ :=
    streamOf_acknowledged streamID w.metering answer.2.committedSequence
  refine h.metered hnumbered hgrows (hrecovery.trans h.recovery) ?_
    fun batch hbatch => by cases hbatch
  rcases hcursor with hkept | hmoved
  · rw [hkept]
    exact h.acknowledged
  · rw [hmoved]
    exact hcommitted

/-- Every move keeps the invariant. -/
theorem Delivers.step (h : Delivers codec machineId installation streamID w) (move : UsageMove) :
    Delivers codec machineId installation streamID
      (w.step codec machineId installation streamID move) := by
  cases move with
  | store event =>
    simp only [UsageWorld.step]
    split_ifs with hevent
    · obtain ⟨hnumbered, hgrows⟩ := h.numbered.step event
      obtain ⟨hcommitted, hrecovery⟩ := streamOf_besides h.numbered hevent
      exact h.metered hnumbered hgrows (hrecovery.trans h.recovery)
        (hcommitted.le.trans h.acknowledged) h.waiting
    · exact h
  | send =>
    simp only [UsageWorld.step]
    split_ifs
    · cases hnext : nextBatch streamID w.metering.store with
      | none => exact h
      | some batch => exact h.sent hnext
    · exact h
  | serve vault fresh row request now =>
    by_cases hrequest : request ∈ w.requests
    · exact h.served vault fresh row now hrequest
    · simp only [UsageWorld.step, if_neg hrequest]
      exact h
  | receive answer =>
    simp only [UsageWorld.step]
    cases hwaiting : w.waiting with
    | none => exact h
    | some batch =>
      dsimp only
      split_ifs with hanswer
      · exact h.received hwaiting hanswer.1 hanswer.2
      · exact h
  | giveUp =>
    exact h.metered h.numbered (List.prefix_refl _) h.recovery h.acknowledged
      fun batch hbatch => by cases hbatch
  | crash =>
    exact h.metered h.numbered (List.prefix_refl _) h.recovery h.acknowledged
      fun batch hbatch => by cases hbatch
  | panel call =>
    simp only [UsageWorld.step]
    split_ifs with hcall
    · obtain ⟨hget, happlied⟩ := ledger_elsewhere hcall
      exact h.unchanged (h.agrees.step call) hget happlied
    · exact h

theorem delivers_run (moves : List UsageMove) : Delivers codec machineId installation streamID
    (UsageWorld.run codec machineId installation streamID moves) := by
  suffices ∀ w, Delivers codec machineId installation streamID w →
      Delivers codec machineId installation streamID
        (moves.foldl (UsageWorld.step codec machineId installation streamID) w) from
    this _ delivers_start
  induction moves with
  | nil => exact fun w h => h
  | cons move moves ih => exact fun w h => ih _ (h.step move)

/-- A request whose sequence was committed is answered with the cursor, and changes nothing. -/
theorem Delivers.repeated (h : Delivers codec machineId installation streamID w)
    {vault : Vault} {fresh : String → String} {row : MachineRow} {request : ReportUsageRequest}
    {now : Int} {identity : Installation} (hrequest : request ∈ w.requests)
    (hle : request.sequence ≤ w.committed machineId installation streamID)
    (hidentity : Panel.assertInstallation row request.installation false = .ok identity)
    (hcheck : checkRequest request = .ok ()) :
    reportUsage vault fresh codec machineId row request now w.ledger.db =
      .ok (⟨w.committed machineId installation streamID,
        w.committed machineId installation streamID + 1⟩, w.ledger.db) := by
  obtain ⟨hconveys, -⟩ := h.requests request hrequest
  have hsame := hidentity
  rw [hconveys.installation] at hsame
  obtain rfl := assertInstallation_same hsame
  simp only [reportUsage, hidentity, hcheck, ok_bind, hconveys.stream]
  rw [UsageWorld.committed] at hle
  simp only [usageKey] at hle
  rw [if_pos hle, failIf_of_not, ok_bind]
  · rfl
  · rintro ⟨hlast, hdiffers⟩
    have hpositive := hconveys.positive
    have hcommitted : request.sequence = w.committed machineId identity streamID := hlast
    obtain ⟨message, hmessage, hhash⟩ := h.hash (by omega)
    obtain ⟨message', hmessage', -, hhash'⟩ := hconveys.message
    rw [hcommitted, hmessage] at hmessage'
    obtain rfl := Option.some.inj hmessage'
    rw [hhash'] at hdiffers
    exact hdiffers hhash

end Preservation

/-- **Usage is delivered exactly once.** After every run, whatever requests and answers were lost,
repeated, delayed or reordered, however often the panel refused, and wherever the daemon crashed:
the daemon's cursor is not after the panel's, which is before the next number; the panel applied,
in order and each once, the first messages of the stream; a message is stored until its sequence is
acknowledged, and it is acknowledged only once it is committed; the stream never needs recovery;
and a request that arrives is never ahead of the panel, and never in conflict with it. -/
theorem usage_delivered_once (codec : Codec) (machineId : String) (installation : Installation)
    (streamID : String) (moves : List UsageMove) :
    let w := UsageWorld.run codec machineId installation streamID moves
    let st := Daemon.streamOf streamID w.metering.store
    let committed := w.committed machineId installation streamID
    let applied := w.applied machineId installation streamID
    (st.committedSeq ≤ committed ∧ committed < st.nextSeq) ∧
    (applied.map (·.sequence) = (List.range committed.toNat).map (fun i : ℕ => (i : Int) + 1) ∧
      ∀ (i : ℕ) (a : Panel.Applied), applied[i]? = some a → ∃ message,
        (messagesOf streamID w.metering)[i]? = some message ∧
        codec.usageBatchFromBinary message.marshal = some a.batch) ∧
    (∀ (i : ℕ) (message : UsageBatch), (messagesOf streamID w.metering)[i]? = some message →
      (i + 1 : Int) ≤ st.committedSeq ∨ ∃ row ∈ rowsOf streamID w.metering.store,
        row.seq = i + 1 ∧ row.payload = message.marshal ∧
          row.payloadHash = sha256 message.marshal) ∧
    usageRecoveryIssue streamID w.metering.store = "" ∧
    ∀ request ∈ w.requests, request.sequence ≤ committed + 1 ∧
      ∀ vault fresh row now identity, request.sequence ≤ committed →
        Panel.assertInstallation row request.installation false = .ok identity →
        checkRequest request = .ok () →
        reportUsage vault fresh codec machineId row request now w.ledger.db =
          .ok (⟨committed, committed + 1⟩, w.ledger.db) := by
  intro w st committed applied
  have h : Delivers codec machineId installation streamID w := delivers_run moves
  have hnext := h.numbered.next
  have hcommitted := h.committed
  refine ⟨⟨h.acknowledged, ?_⟩, ⟨?_, h.applied⟩, fun i message hmessage => ?_, ?_,
    fun request hrequest => ⟨(h.requests request hrequest).2, ?_⟩⟩
  · show w.committed machineId installation streamID <
      (Daemon.streamOf streamID w.metering.store).nextSeq
    omega
  · exact (h.agrees.sequences (usageKey machineId installation streamID)).2
  · rcases lt_or_ge st.committedSeq (i + 1 : Int) with hlater | hacknowledged
    · exact .inr (h.numbered.stored hmessage hlater)
    · exact .inl hacknowledged
  · exact (usageRecoveryIssue_eq _ _).trans h.recovery
  · intro vault fresh row now identity hle hidentity hcheck
    exact h.repeated hrequest hle hidentity hcheck

/-! ## After losses -/

section Round

variable {codec : Codec} {machineId : String} {installation : Installation} {streamID : String}
  {w : UsageWorld} {vault : Vault} {fresh : String → String} {row : MachineRow} {now : Int}
  {response : ReportUsageResponse} {db' : Panel.Database}

/-- The answer to a request is the cursor the panel is left with. -/
theorem committedOf_served {ledger : Ledger} {request : ReportUsageRequest}
    (hinstallation : request.installation = some installation)
    (hstream : request.streamId = streamID)
    (h : reportUsage vault fresh codec machineId row request now ledger.db = .ok (response, db')) :
    committedOf (usageKey machineId installation streamID)
        (ledger.step codec (.report vault fresh machineId row request now)).db =
      response.committedSequence := by
  rcases ledger_served hinstallation hstream h with
    ⟨hdb, -, hresponse, -⟩ | ⟨-, hresponse, hstreams, -⟩
  · rw [hdb, hresponse]
  · rw [committedOf, hstreams, Table.get?_set_self, hresponse]
    rfl

/-- A sequence between the cursors can be acknowledged. -/
theorem Numbered.acknowledges {m : Metering} (h : Numbered streamID m) {stored : BatchRow}
    (hstored : stored ∈ rowsOf streamID m.store) {seq : Int} (hlow : stored.seq ≤ seq)
    (hhigh : seq ≤ (messagesOf streamID m).length) :
    (Daemon.streamOf streamID (m.step (.acknowledgeUsage streamID seq)).store).committedSeq =
      seq := by
  have hseq : stored.seq ∈ (rowsOf streamID m.store).map BatchRow.seq := List.mem_map_of_mem hstored
  rw [(h.outbox.streams streamID).sequences, mem_numbers] at hseq
  have hnext := h.next
  cases hcall : Daemon.acknowledgeUsage streamID seq m.store with
  | error e =>
    exfalso
    simp only [Daemon.acknowledgeUsage, bind_eq_error, found_eq_error, found_eq_ok,
      failIf_eq_error, pure_ne_error, and_false, exists_false, or_false] at hcall
    rcases hcall with ⟨hnone, -⟩ | ⟨st, hst, hrange, -⟩
    · rw [Daemon.streamOf, hnone] at hseq hnext
      simp only [Option.getD_none] at hseq hnext
      omega
    · rw [Daemon.streamOf, hst] at hseq hnext
      simp only [Option.getD_some] at hseq hnext
      omega
  | ok s' =>
    obtain ⟨st, hst, -, -, -, -, hstreams⟩ := Daemon.acknowledgeUsage_eq_ok hcall
    simp only [Metering.step, hcall]
    rw [Daemon.streamOf, hstreams, Table.get?_set_self, Option.getD_some]

/-- The moves of one round, and where they end. -/
theorem Delivers.round (h : Delivers codec machineId installation streamID w) {batch : Batch}
    (hnext : nextBatch streamID w.metering.store = some batch)
    (haccepted : reportUsage vault fresh codec machineId row (usageRequest installation batch) now
      w.ledger.db = .ok (response, db')) :
    [.giveUp, .send, .serve vault fresh row (usageRequest installation batch) now,
        .receive (usageRequest installation batch, response)].foldl
        (UsageWorld.step codec machineId installation streamID) w =
      { w with
        metering := w.metering.step (handled batch response)
        ledger := w.ledger.step codec
          (.report vault fresh machineId row (usageRequest installation batch) now)
        waiting := none
        requests := w.requests ++ [usageRequest installation batch]
        answers := w.answers ++ [(usageRequest installation batch, response)] } := by
  have hrecovery : usageRecoveryIssue streamID w.metering.store = "" :=
    (usageRecoveryIssue_eq _ _).trans h.recovery
  simp only [List.foldl_cons, List.foldl_nil, UsageWorld.step, Option.isNone_none, hrecovery,
    and_self, if_true, hnext, List.mem_append, List.mem_singleton, or_true, haccepted]

end Round

/-- **One undisturbed round brings both ends together**, whatever was lost before it: when the
oldest batch is sent, not refused and answered, the daemon has acknowledged all that the panel
committed, and it stores only what the panel has not committed. -/
theorem usage_resynchronised {codec : Codec} {machineId : String} {installation : Installation}
    {streamID : String} {moves : List UsageMove} {batch : Batch} {vault : Vault}
    {fresh : String → String} {row : MachineRow} {now : Int} {response : ReportUsageResponse}
    {db' : Panel.Database}
    (hnext : nextBatch streamID
      (UsageWorld.run codec machineId installation streamID moves).metering.store = some batch)
    (haccepted : reportUsage vault fresh codec machineId row (usageRequest installation batch) now
      (UsageWorld.run codec machineId installation streamID moves).ledger.db =
        .ok (response, db')) :
    let w := UsageWorld.run codec machineId installation streamID (moves ++ [.giveUp, .send,
      .serve vault fresh row (usageRequest installation batch) now,
      .receive (usageRequest installation batch, response)])
    (Daemon.streamOf streamID w.metering.store).committedSeq =
        w.committed machineId installation streamID ∧
      batch.seq ≤ w.committed machineId installation streamID ∧
      ∀ stored ∈ rowsOf streamID w.metering.store,
        w.committed machineId installation streamID < stored.seq := by
  intro w
  have hend : Delivers codec machineId installation streamID w := delivers_run _
  have h : Delivers codec machineId installation streamID
    (UsageWorld.run codec machineId installation streamID moves) := delivers_run moves
  have hw : w = _ := List.foldl_append.trans (h.round hnext haccepted)
  obtain ⟨stored, hstored, hstream, -, hbatch⟩ := h.numbered.oldest hnext
  have hid : batch.streamID = streamID := by rw [hbatch, hstream]
  have hseq : stored.seq = batch.seq := by rw [hbatch]
  have hanswer := hend.answers (usageRequest installation batch, response) (by
    rw [hw]
    exact List.mem_append_right _ (List.mem_singleton_self _))
  have hcovers : batch.seq ≤ response.committedSequence := hanswer.1
  have hcommitted : w.committed machineId installation streamID = response.committedSequence := by
    rw [hw]
    exact committedOf_served rfl hid haccepted
  have hacknowledged : (Daemon.streamOf streamID w.metering.store).committedSeq =
      w.committed machineId installation streamID := by
    have hhandled : handled batch response =
        .acknowledgeUsage streamID response.committedSequence := by
      rw [handled, if_neg (not_lt.2 hcovers), hid]
    have hmessages : messagesOf streamID w.metering = messagesOf streamID
        (UsageWorld.run codec machineId installation streamID moves).metering := by
      rw [hw]
      dsimp only
      rw [hhandled]
      rcases messagesOf_step streamID
          (UsageWorld.run codec machineId installation streamID moves).metering
          (.acknowledgeUsage streamID response.committedSequence) with
        ⟨_, _, _, hsample, -⟩ | ⟨hsame, -⟩
      · cases hsample
      · exact hsame
    have hlength := hend.committed
    rw [hcommitted, hmessages] at hlength
    rw [hcommitted, hw]
    dsimp only
    rw [hhandled]
    exact h.numbered.acknowledges hstored (hseq.le.trans hcovers) hlength
  refine ⟨hacknowledged, hcovers.trans hcommitted.ge, fun later hlater => ?_⟩
  have hnumber : later.seq ∈ (rowsOf streamID w.metering.store).map BatchRow.seq :=
    List.mem_map_of_mem hlater
  rw [(hend.numbered.outbox.streams streamID).sequences, mem_numbers] at hnumber
  omega

/-! ## A lost answer -/

/-- The batch of the first sample. -/
def sampledBatch : UsageBatch := ⟨[⟨"u", 1704038370000, 1704038430000, 7, 1, true, false⟩], "core"⟩

def sampledRow : Batch :=
  ⟨1, "usage-installation-0001", sha256 sampledBatch.marshal, sampledBatch.marshal⟩

def sampledCodec : Codec where
  taskSpecToBinary _ := []
  taskSpecFromBinary _ := none
  reportTaskToBinary _ := []
  usageBatchFromBinary payload := if payload = sampledBatch.marshal then some sampledBatch else none
  diagnosticText _ := none

/-- The row of a machine that was bound once. -/
def boundMachine : MachineRow :=
  { tokenHash := "", installationId := some "installation-0001", bindingEpoch := 1, createdAt := 0 }

def boundInstallation : Installation := ⟨"installation-0001", 1⟩

/-- A sample is sent and committed, and the daemon crashes before it is answered. -/
def lostAnswer : List UsageMove :=
  [.panel (.other { Panel.Database.empty with
      machineUserHistory := Table.empty.set ("m", "u") () }),
    .store (.recordSample "usage-installation-0001"
      [⟨"u", "core", 7, 1, 1704038430000, 1704038370000, false⟩]),
    .send,
    .serve ⟨fun _ => none⟩ id boundMachine (usageRequest boundInstallation sampledRow)
      1704038430000,
    .crash]

/-- The panel has committed the batch already; it is sent again, and acknowledged. -/
theorem lostAnswer_resynchronised :
    (UsageWorld.run sampledCodec "m" boundInstallation "usage-installation-0001"
      lostAnswer).committed "m" boundInstallation "usage-installation-0001" = 1 ∧
    ∃ response,
      let w := UsageWorld.run sampledCodec "m" boundInstallation "usage-installation-0001"
        (lostAnswer ++ [.giveUp, .send,
          .serve ⟨fun _ => none⟩ id boundMachine (usageRequest boundInstallation sampledRow)
            1704038440000,
          .receive (usageRequest boundInstallation sampledRow, response)])
      (Daemon.streamOf "usage-installation-0001" w.metering.store).committedSeq =
          w.committed "m" boundInstallation "usage-installation-0001" ∧
        sampledRow.seq ≤ w.committed "m" boundInstallation "usage-installation-0001" := by
  have hcomputed : (UsageWorld.run sampledCodec "m" boundInstallation "usage-installation-0001"
        lostAnswer).committed "m" boundInstallation "usage-installation-0001" = 1 ∧
      nextBatch "usage-installation-0001" (UsageWorld.run sampledCodec "m" boundInstallation
        "usage-installation-0001" lostAnswer).metering.store = some sampledRow ∧
      (reportUsage ⟨fun _ => none⟩ id sampledCodec "m" boundMachine
        (usageRequest boundInstallation sampledRow) 1704038440000
        (UsageWorld.run sampledCodec "m" boundInstallation "usage-installation-0001"
          lostAnswer).ledger.db).toOption.isSome = true := by
    decide +kernel
  obtain ⟨hcommitted, hnext, hsome⟩ := hcomputed
  refine ⟨hcommitted, ?_⟩
  cases hanswer : reportUsage ⟨fun _ => none⟩ id sampledCodec "m" boundMachine
      (usageRequest boundInstallation sampledRow) 1704038440000
      (UsageWorld.run sampledCodec "m" boundInstallation "usage-installation-0001"
        lostAnswer).ledger.db with
  | error e =>
    rw [hanswer] at hsome
    cases hsome
  | ok result =>
    obtain ⟨response, db'⟩ := result
    obtain ⟨hcursors, hcovers, -⟩ := usage_resynchronised hnext hanswer
    exact ⟨response, hcursors, hcovers⟩

end Bifurcation.Delivery
