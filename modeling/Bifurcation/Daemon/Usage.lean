import Bifurcation.Lib.Outcome
import Bifurcation.Lib.Table
import Bifurcation.Protocol

/-!
# The daemon's usage store

`internal/state/usage.go`: counters of the running core are turned into deltas against the
cursor of each user, the deltas into batches, and the batches are appended to the stream's
outbox, all in one transaction.

Times and byte counts are `int64` in the source. On every path they are nonnegative and only
differences of ordered values, sums below `2^53 + dayMilliseconds` and guarded sums are formed,
so nothing wraps and they are modelled as integers.
-/

namespace Bifurcation.Daemon

/-! ## Rows -/

structure Counter where
  userID : String
  runtimeID : String
  upload : Int
  download : Int
  observedAt : Int
  startedAt : Int
  final : Bool
deriving DecidableEq

structure Delta where
  userID : String
  start : Int
  end_ : Int
  upload : Int
  download : Int
  incomplete : Bool
  estimated : Bool
deriving DecidableEq

structure Batch where
  seq : Int
  streamID : String
  hash : String
  payload : Bytes
deriving DecidableEq

structure CursorRow where
  runtimeID : String
  upload : Int
  download : Int
  observedAt : Int
  closed : Bool
deriving DecidableEq

structure StreamRow where
  nextSeq : Int := 1
  committedSeq : Int := 0
  pendingBytes : Int := 0
  recoveryIssue : String := ""
deriving DecidableEq

structure BatchRow where
  seq : Int
  streamID : String
  sizeBytes : Int
  payload : Bytes
  payloadHash : String
deriving DecidableEq

/-- The usage tables of the daemon's database. -/
structure Store where
  cursors : Table String CursorRow
  streams : Table String StreamRow
  batches : Table String BatchRow
deriving DecidableEq

def Store.empty : Store := ⟨.empty, .empty, .empty⟩

inductive StoreError where
  | counterRegression
  | sequence
  | outboxFull
  /-- A row that must exist is missing. -/
  | notFound
  /-- A validator or a unique key refused the row. -/
  | constraint
deriving DecidableEq

/-! ## Deltas of one counter -/

/-- A managed core's counters start at zero at `startedAt`, even if its first sample already
contains traffic. Unknown first adoption deliberately uses a baseline. -/
def managedInitialDelta (counter : Counter) (incomplete : Bool) : Except StoreError (List Delta) :=
  if counter.startedAt = 0 ∨ counter.upload = 0 ∧ counter.download = 0 then
    .ok []
  else if counter.startedAt ≥ counter.observedAt ∨ counter.upload > maxInt64 - counter.download then
    .error .counterRegression
  else
    .ok [{ userID := counter.userID, start := counter.startedAt, end_ := counter.observedAt
           upload := counter.upload, download := counter.download
           estimated := true, incomplete }]

/-- The end of the unknown interval before a new runtime. -/
def gapEnd (c : Counter) : Int := if c.startedAt > 0 then c.startedAt else c.observedAt

/-- The zero-byte delta for the unknown interval before a new runtime. -/
def gapDelta (old : CursorRow) (c : Counter) : Delta where
  userID := c.userID
  start := old.observedAt
  end_ := gapEnd c
  upload := 0
  download := 0
  incomplete := true
  estimated := true

/-- The branch of `RecordSample` that compares a counter with the previous sample: `none` skips
the counter and leaves its cursor, `some` lists its deltas. -/
def meterCounter (old : Option CursorRow) (c : Counter) :
    Except StoreError (Option (List Delta)) :=
  match old with
  | none => do
    let first ← managedInitialDelta c false
    return some first
  | some old =>
    if old.closed ∧ old.runtimeID = c.runtimeID ∧ ¬ c.final then
      if c.observedAt ≤ old.observedAt ∧ c.upload ≤ old.upload ∧ c.download ≤ old.download then
        .ok none
      else
        .error .counterRegression
    else if c.observedAt < old.observedAt then
      .error .counterRegression
    else if old.runtimeID = c.runtimeID then
      if c.upload < old.upload ∨ c.download < old.download then
        .error .counterRegression
      else
        let upload := c.upload - old.upload
        let download := c.download - old.download
        if c.observedAt = old.observedAt ∧ (upload ≠ 0 ∨ download ≠ 0) ∨
            upload > maxInt64 - download then
          .error .counterRegression
        else if upload ≠ 0 ∨ download ≠ 0 then
          .ok (some [{ userID := c.userID, start := old.observedAt, end_ := c.observedAt
                       upload, download, incomplete := false
                       estimated := decide (c.observedAt - old.observedAt > 10000) }])
        else
          .ok (some [])
    else do
      let gap := if ¬ old.closed ∧ gapEnd c > old.observedAt then [gapDelta old c] else []
      let first ← managedInitialDelta c
        (!old.closed && decide (c.startedAt > 0) && decide (c.startedAt ≤ old.observedAt))
      return some (gap ++ first)

/-! ## One sample -/

/-- The row key of a user's cursor in a stream: `%d:%s%s` of the length, the stream and the
user. -/
def cursorID (streamID userID : String) : String :=
  toString streamID.utf8ByteSize ++ ":" ++ streamID ++ userID

/-- What the sampling loop has done so far. -/
structure SampleTx where
  cursors : Table String CursorRow
  deltas : List Delta
  seen : List String
  runtimeID : String

/-- The checks on a counter before it is compared with anything. -/
def badCounter (seen : List String) (c : Counter) : Prop :=
  c.userID = "" ∨ c.runtimeID = "" ∨ c.upload < 0 ∨ c.download < 0 ∨ c.observedAt < 0 ∨
    c.observedAt > maxSafeInteger ∨ c.startedAt < 0 ∨ c.startedAt > c.observedAt ∨ c.userID ∈ seen

instance (seen : List String) (c : Counter) : Decidable (badCounter seen c) := by
  unfold badCounter; infer_instance

/-- The cursor a counter leaves behind. -/
def cursorOf (c : Counter) : CursorRow :=
  ⟨c.runtimeID, c.upload, c.download, c.observedAt, c.final⟩

/-- The body of the sampling loop. -/
def recordCounter (streamID : String) (tx : SampleTx) (c : Counter) :
    Except StoreError SampleTx := do
  let runtimeID := if tx.runtimeID = "" then c.runtimeID else tx.runtimeID
  failIf (c.runtimeID ≠ runtimeID) .counterRegression
  failIf (badCounter tx.seen c) .counterRegression
  let seen := c.userID :: tx.seen
  let id := cursorID streamID c.userID
  let deltas ← meterCounter (tx.cursors.get? id) c
  match deltas with
  | none => return { tx with seen, runtimeID }
  | some deltas =>
    return { cursors := tx.cursors.set id (cursorOf c), deltas := tx.deltas ++ deltas
             seen, runtimeID }

/-- The sampling loop. -/
def recordCounters (streamID : String) (cursors : Table String CursorRow)
    (counters : List Counter) : Except StoreError SampleTx :=
  counters.foldlM (recordCounter streamID) ⟨cursors, [], [], ""⟩

/-! ## Batching -/

def scaledBytes (total offset duration : Int) : Int := (total * offset).tdiv duration

/-- The pieces `batchDeltas` cuts a delta into, from `start` on: each at most one day long. The
fuel bounds the number of days. -/
def piecesFrom (delta : Delta) : Nat → Int → List UsageDelta
  | 0, _ => []
  | n + 1, start =>
    if start < delta.end_ then
      let duration := delta.end_ - delta.start
      let stop := min delta.end_ (start + dayMilliseconds)
      { userId := delta.userID, startUnixMs := start, endUnixMs := stop
        uploadBytes := scaledBytes delta.upload (stop - delta.start) duration -
          scaledBytes delta.upload (start - delta.start) duration
        downloadBytes := scaledBytes delta.download (stop - delta.start) duration -
          scaledBytes delta.download (start - delta.start) duration
        incomplete := delta.incomplete
        estimated := delta.estimated || decide (duration > dayMilliseconds) } ::
        piecesFrom delta n stop
    else []

def pieces (delta : Delta) : List UsageDelta :=
  piecesFrom delta ((delta.end_ - delta.start) / dayMilliseconds + 1).toNat delta.start

/-- The projection budget a piece takes. -/
def cost (piece : UsageDelta) : Int := (piece.endUnixMs - piece.startUnixMs) / 60000 + 6

/-- The variables of `batchDeltas`: the finished messages, the deltas of the message being
filled, and the projections it holds. -/
structure Batching where
  result : List UsageBatch
  deltas : List UsageDelta
  projections : Int

def Batching.flush (runtimeID : String) (b : Batching) : Batching :=
  if b.deltas.length > 0 then ⟨b.result ++ [⟨b.deltas, runtimeID⟩], [], 0⟩ else b

def Batching.add (runtimeID : String) (b : Batching) (piece : UsageDelta) : Batching :=
  let b := if b.deltas.length ≥ 256 ∨ b.projections + cost piece > 8000 then
    b.flush runtimeID else b
  { b with deltas := b.deltas ++ [piece], projections := b.projections + cost piece }

/-- A conservative projection budget bounds the receiving panel's minute/day/month transaction
as well as its 256-delta limit. Every source byte is preserved. -/
def batchDeltas (runtimeID : String) (deltas : List Delta) : List UsageBatch :=
  (((deltas.flatMap pieces).foldl (Batching.add runtimeID) ⟨[], [], 0⟩).flush runtimeID).result

/-! ## The outbox -/

def outboxBudget : Int := 64 * 2 ^ 20

def batchID (streamID : String) (seq : Int) : String := streamID ++ ":" ++ toString seq

/-- The row of a batch. -/
def batchRow (streamID : String) (seq : Int) (message : UsageBatch) : BatchRow where
  seq := seq
  streamID := streamID
  sizeBytes := message.marshal.length
  payload := message.marshal
  payloadHash := sha256 message.marshal

/-- What the appending loop has done so far. -/
structure AppendTx where
  batches : Table String BatchRow
  pendingBytes : Int
  index : Nat
  first : Option Batch

/-- The body of the appending loop. -/
def appendBatch (streamID : String) (nextSeq : Int) (tx : AppendTx) (message : UsageBatch) :
    Except StoreError AppendTx := do
  failIf (tx.index ≥ maxInt64 - nextSeq) .sequence
  let seq := nextSeq + tx.index
  let row := batchRow streamID seq message
  failIf (row.sizeBytes > 2 ^ 20 ∨ tx.pendingBytes > outboxBudget - row.sizeBytes) .outboxFull
  let batches ← found .constraint (tx.batches.insert? (batchID streamID seq) row)
  return { batches, pendingBytes := tx.pendingBytes + row.sizeBytes, index := tx.index + 1
           first := tx.first <|> some ⟨seq, streamID, row.payloadHash, row.payload⟩ }

/-- The stream row, created on the stream's first sample. -/
def openStream (streamID : String) (streams : Table String StreamRow) :
    Except StoreError (StreamRow × Table String StreamRow) :=
  match streams.get? streamID with
  | some st => .ok (st, streams)
  | none => if streamID = "" then .error .constraint else .ok ({}, streams.set streamID {})

/-- `RecordSample` commits counters with immutable batches: the first batch it appended, and
the store after its commit. -/
def recordSample (streamID : String) (counters : List Counter) (s : Store) :
    Except StoreError (Option Batch × Store) := do
  let (st, streams) ← openStream streamID s.streams
  let tx ← recordCounters streamID s.cursors counters
  let messages := batchDeltas tx.runtimeID tx.deltas
  let out ← messages.foldlM (appendBatch streamID st.nextSeq) ⟨s.batches, st.pendingBytes, 0, none⟩
  let streams := if messages.length > 0 then
    streams.set streamID
      { st with nextSeq := st.nextSeq + messages.length, pendingBytes := out.pendingBytes }
    else streams
  return (out.first, { cursors := tx.cursors, streams, batches := out.batches })

/-- The oldest retained batch of a stream. -/
def nextBatch (streamID : String) (s : Store) : Option Batch :=
  let rows := (s.batches.rows.map Prod.snd).filter fun row => row.streamID = streamID
  (rows.insertionSort (·.seq ≤ ·.seq)).head?.map fun row =>
    ⟨row.seq, row.streamID, row.payloadHash, row.payload⟩

/-- Advance the stream to `seq` and delete its batches up to there. -/
def acknowledgeUsage (streamID : String) (seq : Int) (s : Store) : Except StoreError Store := do
  let st ← found .notFound (s.streams.get? streamID)
  failIf (seq < st.committedSeq ∨ seq ≥ st.nextSeq) .sequence
  let acked := fun (_ : String) (row : BatchRow) => decide (row.streamID = streamID ∧ row.seq ≤ seq)
  let size := s.batches.sumBy fun id row => if acked id row then row.sizeBytes else 0
  return { s with
    batches := s.batches.deleteWhere acked
    streams := s.streams.set streamID
      { st with committedSeq := seq, pendingBytes := max 0 (st.pendingBytes - size) } }

def usageRecoveryIssue (streamID : String) (s : Store) : String :=
  match s.streams.get? streamID with
  | some st => st.recoveryIssue
  | none => ""

def requireUsageRecovery (streamID message : String) (s : Store) : Except StoreError Store := do
  let st ← found .notFound (s.streams.get? streamID)
  return { s with streams := s.streams.set streamID { st with recoveryIssue := message } }

end Bifurcation.Daemon
