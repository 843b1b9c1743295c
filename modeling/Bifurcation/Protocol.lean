import Bifurcation.Lib.Protobuf

/-!
# Messages between the daemon and the panel

The usage and task messages of `machine.proto`, and the encoding of a batch. The daemon stores
and sends the encoded bytes of a batch and never encodes it again. Of a machine's status only
the fields that some decision reads are kept; its resource readings are left out.
-/

namespace Bifurcation

/-- The largest `int64`: Go's `math.MaxInt64` and the panel's `MAX_BYTES`. -/
def maxInt64 : Int := 9223372036854775807

/-- The largest integer both languages represent exactly: `1<<53-1`, `MAX_SAFE_INTEGER`. -/
def maxSafeInteger : Int := 9007199254740991

/-- One day, in milliseconds: `dayMilliseconds` in the daemon, `DAY_MS` in the panel. -/
def dayMilliseconds : Int := 24 * 60 * 60 * 1000

structure Installation where
  installationId : String
  bindingEpoch : Int
deriving DecidableEq

structure UsageDelta where
  userId : String
  startUnixMs : Int
  endUnixMs : Int
  uploadBytes : Int
  downloadBytes : Int
  estimated : Bool
  incomplete : Bool
deriving DecidableEq

/-- A delta that is not only a gap. -/
def UsageDelta.carries (d : UsageDelta) : Prop := d.uploadBytes ≠ 0 ∨ d.downloadBytes ≠ 0

instance (d : UsageDelta) : Decidable d.carries := by
  unfold UsageDelta.carries; infer_instance

structure UsageBatch where
  deltas : List UsageDelta
  coreRuntimeId : String
deriving DecidableEq

structure ReportUsageRequest where
  installation : Option Installation
  streamId : String
  sequence : Int
  payload : Bytes
  payloadSha256 : String
deriving DecidableEq

structure ReportUsageResponse where
  committedSequence : Int
  expectedSequence : Int
deriving DecidableEq

/-- `TaskKind` of `machine.proto`. The enumeration is open: a message may carry a number that has
no name here. -/
inductive TaskKind where
  | inspect
  | applyConfig
  | upgradeDaemon
  | uninstall
  | other (number : Int) (unnamed : number ∉ [1, 3, 5, 6])
deriving DecidableEq

/-- The number of a kind in `machine.proto`. -/
def TaskKind.number : TaskKind → Int
  | .inspect => 1
  | .applyConfig => 3
  | .upgradeDaemon => 5
  | .uninstall => 6
  | .other number _ => number

structure MachineStatus where
  observedAtUnixMs : Int
  daemonVersion : String
  maintenanceStatus : Int
  appliedRevisionId : String
  appliedPolicyRevision : Int
  usageIncomplete : Bool
  issue : String
  networkInterface : String
deriving DecidableEq

inductive RollbackState where
  | unspecified
  | notNeeded
  | succeeded
  | failed
deriving DecidableEq

/-- The state a `ReportTaskRequest` names: `TaskState` of `machine.proto`. -/
inductive ReportedState where
  | unspecified
  | running
  | succeeded
  | failed
deriving DecidableEq

structure ReportTaskRequest where
  installation : Option Installation
  taskId : String
  payloadSha256 : String
  sequence : Int
  state : ReportedState
  phase : String
  progressPercent : Option ℕ
  errorCode : String
  message : String
  rollback : RollbackState
  actualStatus : Option MachineStatus
  diagnosticJson : Bytes
deriving DecidableEq

/-- The answer to a task report. -/
structure ReportTaskResponse where
  committedSequence : Int
  terminal : Bool
deriving DecidableEq

def UsageDelta.marshal (d : UsageDelta) : Bytes :=
  Protobuf.stringField 1 d.userId ++ Protobuf.int64Field 2 d.startUnixMs ++
    Protobuf.int64Field 3 d.endUnixMs ++ Protobuf.int64Field 4 d.uploadBytes ++
    Protobuf.int64Field 5 d.downloadBytes ++ Protobuf.boolField 6 d.estimated ++
    Protobuf.boolField 7 d.incomplete

/-- `proto.Marshal`. It fails only on a string that is not valid UTF-8, which no `String` is. -/
def UsageBatch.marshal (m : UsageBatch) : Bytes :=
  m.deltas.flatMap (fun d => Protobuf.delimited 1 d.marshal) ++
    Protobuf.stringField 2 m.coreRuntimeId

end Bifurcation
