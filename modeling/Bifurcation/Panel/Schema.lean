import Bifurcation.Lib.Outcome
import Bifurcation.Lib.Table
import Bifurcation.Protocol

/-!
# The panel's database

The tables of `db/schema*.ts` that the machine, configuration, policy and usage stores read and
write, as one record, and the errors their calls throw. A call is one synchronous transaction:
it either throws and leaves the record as it is, or returns the record it commits.

Numbers in these tables are counters, times and revisions that stay below `2^53`, so they are
integers here. Columns that only pages show (names, addresses, resource readings) are left out.
-/

namespace Bifurcation.Panel

/-! ## Errors -/

/-- The codes of a `ConnectError`. -/
inductive Code where
  | canceled
  | invalidArgument
  | notFound
  | alreadyExists
  | permissionDenied
  | resourceExhausted
  | failedPrecondition
  | outOfRange
  | unauthenticated
deriving DecidableEq

inductive PanelError where
  /-- `new ConnectError(message, code)`. -/
  | connect (message : String) (code : Code)
  /-- `new AppError(code, message, status)`. -/
  | app (code message : String) (status : ℕ)
  /-- The database refused a row: a missing value, or a key that is taken. -/
  | constraint
  /-- A stored secret does not decrypt. -/
  | ciphertext
  /-- `fromBinary` threw on stored bytes. -/
  | protobuf
  /-- A `RangeError` of the language. -/
  | range
deriving DecidableEq

/-! ## Machines and tasks -/

/-- The operation of a `TaskSpec`, with the fields the panel reads. -/
inductive TaskSpec where
  | unset
  | inspect (includeLogs : Bool) (maxLogLines maxBytes : ℕ)
  | applyConfig (revisionId : String) (policyRevision : Int)
  | upgradeDaemon (artifactVersion : Option String)
  | uninstall
deriving DecidableEq

def TaskSpec.kind : TaskSpec → Option TaskKind
  | .unset => none
  | .inspect .. => some .inspect
  | .applyConfig .. => some .applyConfig
  | .upgradeDaemon .. => some .upgradeDaemon
  | .uninstall => some .uninstall

structure MachineRow where
  tokenHash : String
  tokenGeneration : Int := 1
  installationId : Option String := none
  bindingEpoch : Int := 0
  sessionEpoch : Int := 0
  statusSequence : Int := 0
  /-- The message whose JSON text `statusJson` holds. -/
  status : Option MachineStatus := none
  supportedTasks : List Int := []
  daemonVersion : Option String := none
  os : Option String := none
  arch : Option String := none
  lastSeenAt : Option Int := none
  version : Int := 1
  createdAt : Int
  removedAt : Option Int := none
deriving DecidableEq

inductive TaskState where
  | queued
  | accepted
  | running
  | succeeded
  | failed
  | canceled
  | superseded
deriving DecidableEq

structure TaskRow where
  machineId : String
  bindingEpoch : Int
  kind : TaskKind
  payload : Bytes
  payloadHash : String
  requestKey : String
  state : TaskState := .queued
  progressSequence : Int := 0
  reportHash : Option String := none
  phase : Option String := none
  progressPercent : Option ℕ := none
  message : Option String := none
  errorCode : Option String := none
  diagnosticJson : Option String := none
  rollback : Option RollbackState := none
  createdAt : Int
  updatedAt : Int
deriving DecidableEq

/-! ## Accounts and policy -/

inductive UserStatus where
  | pending
  | active
  | disabled
deriving DecidableEq

structure UserRow where
  status : UserStatus
  monthlyLimitBytes : Option Int
deriving DecidableEq

structure CredentialRow where
  secretsCiphertext : String
  generation : Int := 1
deriving DecidableEq

/-- The row `global` of `policy_state`. -/
structure PolicyRow where
  revision : Int
  fingerprint : String
  period : String
  updatedAt : Int
deriving DecidableEq

structure QuotaRow where
  usedBytes : Int
  blocked : Bool
deriving DecidableEq

/-! ## Configurations -/

structure ConfigRow where
  settingsCiphertext : Option String := none
  version : Int := 0
  desiredRevisionId : Option String := none
  desiredPolicyRevision : Int := 0
deriving DecidableEq

structure PreviewRow where
  machineId : String
  settingsCiphertext : String
  renderedCiphertext : String
  digest : String
  expectedVersion : Int
  policyRevision : Int
  expiresAt : Int
  createdBy : String
  publishedRevisionId : Option String := none
deriving DecidableEq

structure RevisionRow where
  machineId : String
  version : Int
  settingsCiphertext : String
  renderedCiphertext : String
  digest : String
  policyRevision : Int
  authorizedUserIds : List String
  createdAt : Int
  createdBy : Option String
deriving DecidableEq

/-! ## Usage -/

inductive Grain where
  | minute
  | day
  | month
deriving DecidableEq

structure UsageStreamKey where
  machineId : String
  installationId : String
  streamId : String
deriving DecidableEq

structure UsageStreamRow where
  committedSequence : Int
  lastPayloadHash : String
  lastSeenAt : Int
deriving DecidableEq

structure BucketKey where
  grain : Grain
  bucketStart : Int
  userId : String
  machineId : String
deriving DecidableEq

structure BucketRow where
  uploadBytes : Int
  downloadBytes : Int
  estimated : Bool
  incomplete : Bool
deriving DecidableEq

/-! ## The database -/

structure Database where
  users : Table String UserRow
  proxyCredentials : Table String CredentialRow
  policyState : Option PolicyRow
  quotaStates : Table (String × String) QuotaRow
  machines : Table String MachineRow
  tasks : Table String TaskRow
  machineConfigs : Table String ConfigRow
  configPreviews : Table String PreviewRow
  configRevisions : Table String RevisionRow
  machineUserHistory : Table (String × String) Unit
  usageStreams : Table UsageStreamKey UsageStreamRow
  usageBuckets : Table BucketKey BucketRow
deriving DecidableEq

/-- The database before setup. -/
def Database.empty : Database where
  users := .empty
  proxyCredentials := .empty
  policyState := none
  quotaStates := .empty
  machines := .empty
  tasks := .empty
  machineConfigs := .empty
  configPreviews := .empty
  configRevisions := .empty
  machineUserHistory := .empty
  usageStreams := .empty
  usageBuckets := .empty

/-- What the panel calls outside its own source: the protobuf runtime, and the JSON round trip
of a diagnostic. -/
structure Codec where
  taskSpecToBinary : TaskSpec → Bytes
  taskSpecFromBinary : Bytes → Option TaskSpec
  reportTaskToBinary : ReportTaskRequest → Bytes
  usageBatchFromBinary : Bytes → Option UsageBatch
  /-- `JSON.stringify(JSON.parse(text))`. -/
  diagnosticText : Bytes → Option String

end Bifurcation.Panel
