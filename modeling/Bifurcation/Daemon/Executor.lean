import Bifurcation.Daemon.Journal
import Bifurcation.Lib.ValidUtf8

/-!
# The executor

`execute` of `internal/panelclient/executor.go`: it accepts an announced task, runs the
operation and stores a terminal report. Errors and issues are Go strings, which need not be
UTF-8: a failed candidate command puts its raw output into the error. `report.Message` and the
issue of the attached status are passed through `LimitString` only when they exceed their limits,
so a short text keeps its stray bytes, and protobuf refuses to encode it. The name of the network
interface is taken from the routing table as the kernel writes it, without any check. The other
texts of a report are constants of the program, digests, or came over the wire.

Main results: `execute_stores_report_iff` (a terminal report is stored exactly when the message and
the issue are valid or exceed their limits and the name of the interface is valid) and
`rawOutput_stays_running` (a run that leaves its task running).
-/

namespace Bifurcation.Daemon

/-! ## Errors -/

/-- What `errors.Is` looks for in an error. -/
inductive ErrorCause where
  | stalePolicy
  | unsupported
  | notConfigured
  | handedOff
deriving DecidableEq

structure OperationError where
  /-- `err.Error()`. -/
  text : Bytes
  causes : List ErrorCause := []
deriving DecidableEq

/-- `errors.New`. -/
def OperationError.new (text : String) : OperationError where
  text := utf8 text

/-- `core.ErrUnsupported`. -/
def errUnsupported : OperationError where
  text := utf8 "operation is not supported"
  causes := [.unsupported]

/-- `state.ErrConflict`. -/
def errConflict : OperationError := .new "persistent identity or payload conflict"

def taskErrorCode (err : OperationError) : String :=
  if .stalePolicy ∈ err.causes then "STALE_POLICY"
  else if .unsupported ∈ err.causes then "UNSUPPORTED_TASK"
  else if .notConfigured ∈ err.causes then "CORE_NOT_CONFIGURED"
  else "CORE_OPERATION_FAILED"

/-! ## Tasks -/

structure Artifact where
  version : String
  url : String
  sha256 : String
  os : String
  arch : String
  sizeBytes : Int

/-- The operation of a `TaskSpec`. -/
inductive TaskSpec where
  | unset
  | inspect (includeLogs : Bool) (maxLogLines maxBytes : ℕ)
  | applyConfig (revisionId : String) (policyRevision : Int)
  | upgradeDaemon (artifact : Option Artifact)
  | uninstall

structure TaskAvailable where
  taskId : String
  kind : TaskKind
  payloadSha256 : String

structure AcceptTaskResponse where
  taskId : String
  bindingEpoch : Int
  kind : TaskKind
  payload : Bytes
  payloadSha256 : String

structure GetConfigResponse where
  revisionId : String
  configJson : Bytes
  configSha256 : String
  policyRevision : Int
  latestAuthorizationJson : Bytes
  latestPolicyRevision : Int
  files : List Artifact

/-- `core.Configuration`, as the executor builds it. -/
structure CoreConfiguration where
  taskId : String
  revisionId : String
  sha256 : String
  policyRevision : Int
  json : Bytes
  authorization : Bytes
  latestPolicyRevision : Int

/-! ## What the executor calls -/

/-- The text of a `systemmetrics.Snapshot`: the interface of the default route, a field of
`/proc/net/route` or `/proc/net/ipv6_route`. -/
structure Snapshot where
  networkInterface : Bytes

/-- The fields of `core.Health` that a status reads. -/
structure Health where
  configured : Bool
  healthy : Bool
  revisionId : String
  policyRevision : Int
  issue : Bytes

structure CoreAdapter where
  health : Except OperationError Health
  /-- The rollback an application reports, and its error. -/
  apply : CoreConfiguration → RollbackState × Option OperationError

structure Maintenance where
  active : String → Except OperationError Bool
  beginUpgrade : JournalRow → Artifact → Option OperationError
  beginUninstall : JournalRow → Option OperationError

/-- What the store does while an operation runs: the operation reports progress of its task, and
the session acknowledges results. -/
inductive Activity where
  | progress (report : Bytes)
  | acknowledge (task : String) (seq : Int)

/-- The client, with what the calls of one run answer. -/
structure Client where
  installation : Installation
  codec : ReportCodec
  acceptTask : TaskAvailable → Option AcceptTaskResponse
  reportTask : ReportTaskRequest → Option ReportTaskResponse
  getConfig : String → Except OperationError GetConfigResponse
  decodeSpec : Bytes → Option TaskSpec
  /-- The diagnostic JSON of an inspection, from the health and the logs of the core. -/
  inspect : Bool → ℕ → ℕ → Except OperationError Bytes
  core : Option CoreAdapter
  maintenance : Option Maintenance
  /-- What the sampler of `c.metrics` reads, where there is one. -/
  metrics : Option Snapshot
  activity : List Activity
  now : Int
  version : String
  maintenanceStatus : Int
  usageIssue : Bytes
  reportIssue : Bytes
  persistentUsageIssue : Bytes

inductive ExecuteError where
  | rpc
  | conflict
  | journal (e : JournalError)
  | maintenance (e : OperationError)
  /-- `proto.Marshal` refused the report. -/
  | encoding
  | decoding
deriving DecidableEq

namespace Client

/-! ## The status -/

/-- A `MachineStatus` whose issue and interface are Go strings. -/
structure RawStatus where
  appliedRevisionId : String
  appliedPolicyRevision : Int
  usageIncomplete : Bool
  issue : Bytes
  networkInterface : Bytes

variable (c : Client)

/-- `result.Issue` after the core was asked. -/
def coreIssue : Bytes :=
  match c.core with
  | none => utf8 "Proxy core status is not available"
  | some core =>
    match core.health with
    | .error err => err.text
    | .ok health => health.issue

/-- The issue of the usage queue and of the reports. -/
def localIssue : Bytes :=
  let issue := c.usageIssue
  let issue :=
    if c.reportIssue ≠ [] then (if issue ≠ [] then issue ++ utf8 "; " else issue) ++ c.reportIssue
    else issue
  if c.persistentUsageIssue ≠ [] ∧ issue = [] then c.persistentUsageIssue else issue

/-- The text that `status` shows as the issue, before it is bounded. -/
def shownIssue : Bytes :=
  if c.localIssue ≠ [] ∧ c.coreIssue = [] then c.localIssue else c.coreIssue

/-- `if len(text) > limit { text = LimitString(text, limit) }`. -/
def bound (limit : ℕ) (text : Bytes) : Bytes :=
  if limit < text.length then limitString text limit else text

def coreHealth : Option Health := c.core.bind fun core => core.health.toOption

def networkInterface : Bytes := (c.metrics.map Snapshot.networkInterface).getD []

def status : RawStatus where
  appliedRevisionId := (c.coreHealth.map Health.revisionId).getD ""
  appliedPolicyRevision := (c.coreHealth.map Health.policyRevision).getD 0
  usageIncomplete :=
    !(c.coreHealth.any fun health => health.configured && health.healthy) ||
      c.persistentUsageIssue ≠ [] || c.localIssue ≠ []
  issue := bound 4096 c.shownIssue
  networkInterface := c.networkInterface

/-! ## The operation -/

structure OperationResult where
  rollback : RollbackState := .notNeeded
  diagnosticJson : Bytes := []
  error : Option OperationError := none

def OperationResult.failed (err : OperationError) : OperationResult where
  error := some err

def loadConfig (taskId revisionId : String) : Except OperationError CoreConfiguration := do
  let config ← c.getConfig revisionId
  failIf (config.revisionId ≠ revisionId) errConflict
  failIf (config.files ≠ [])
    (.new "configuration file artifacts are not supported; use inline certificate data")
  return {
    taskId
    revisionId := config.revisionId
    sha256 := config.configSha256
    policyRevision := config.policyRevision
    json := config.configJson
    authorization := config.latestAuthorizationJson
    latestPolicyRevision := config.latestPolicyRevision }

/-- The switch of `execute` on the kind of the task. -/
def operate (id : String) (row : JournalRow) (kind : TaskKind) (spec : TaskSpec) :
    OperationResult :=
  match kind with
  | .inspect =>
    match spec with
    | .inspect includeLogs maxLogLines maxBytes =>
      match c.inspect includeLogs maxLogLines maxBytes with
      | .error err => .failed err
      | .ok diagnosticJson => { diagnosticJson }
    | _ => .failed (.new "inspection payload is missing")
  | .upgradeDaemon =>
    match spec with
    | .upgradeDaemon (some artifact) =>
      match c.maintenance with
      | none => .failed errUnsupported
      | some maintenance => { error := maintenance.beginUpgrade row artifact }
    | _ => .failed (.new "daemon upgrade artifact is missing")
  | .uninstall =>
    match spec with
    | .uninstall =>
      match c.maintenance with
      | none => .failed errUnsupported
      | some maintenance => { error := maintenance.beginUninstall row }
    | _ => .failed (.new "uninstall task payload is missing")
  | .applyConfig =>
    match spec with
    | .applyConfig revisionId policyRevision =>
      match c.core with
      | none => .failed errUnsupported
      | some core =>
        match c.loadConfig id revisionId with
        | .error err => .failed err
        | .ok config =>
          if policyRevision ≠ config.policyRevision then
            .failed (.new "task policy does not match immutable configuration")
          else
            let (rollback, error) := core.apply config
            { rollback, error }
    | _ => .failed (.new "configuration task payload is missing")
  | .other .. => .failed errUnsupported

/-- The error of the operation, where the payload could be decoded. -/
def operationError (id : String) (row : JournalRow) (kind : TaskKind) : Option OperationError :=
  (c.decodeSpec row.payload).bind fun spec => (c.operate id row kind spec).error

/-! ## The report -/

/-- A report before it is encoded. -/
structure Draft where
  errorCode : String := ""
  message : Bytes := []
  rollback : RollbackState := .notNeeded
  diagnosticJson : Bytes := []
  status : RawStatus

/-- The error code of a failed operation. -/
def errorCode (kind : TaskKind) (err : OperationError) : String :=
  match kind with
  | .upgradeDaemon => "UPDATE_PREFLIGHT_FAILED"
  | .uninstall => "UNINSTALL_PREPARATION_FAILED"
  | _ => taskErrorCode err

def draft (id : String) (row : JournalRow) (kind : TaskKind) : Draft :=
  match c.decodeSpec row.payload with
  | none =>
    { errorCode := "INVALID_PAYLOAD"
      message := bound 8192 (utf8 "Task payload cannot be decoded")
      status := c.status }
  | some spec =>
    let result := c.operate id row kind spec
    match result.error with
    | none =>
      { message := bound 8192 []
        rollback := result.rollback
        diagnosticJson := result.diagnosticJson
        status := c.status }
    | some err =>
      { errorCode := errorCode kind err
        message := bound 8192 err.text
        rollback := result.rollback
        diagnosticJson := result.diagnosticJson
        status := c.status }

/-- The texts of a report as protobuf sees them: it refuses those that are not valid. -/
def outcome? (d : Draft) : Option Outcome := do
  let message ← decodeText d.message
  let issue ← decodeText d.status.issue
  let networkInterface ← decodeText d.status.networkInterface
  return {
    errorCode := d.errorCode
    message
    rollback := d.rollback
    actualStatus := some {
      observedAtUnixMs := c.now
      daemonVersion := c.version
      maintenanceStatus := c.maintenanceStatus
      appliedRevisionId := d.status.appliedRevisionId
      appliedPolicyRevision := d.status.appliedPolicyRevision
      usageIncomplete := d.status.usageIncomplete
      issue
      networkInterface }
    diagnosticJson := d.diagnosticJson }

/-- `proto.Marshal(report)`. -/
def marshal (id : String) (row : JournalRow) (d : Draft) : Option (JournalStatus × Bytes) := do
  let outcome ← c.outcome? d
  let report := finalReport id c.installation row outcome
  let encoded ← c.codec.marshal report
  return (statusOf report, encoded)

/-! ## A run -/

def reportResult (id : String) (row : JournalRow) (j : Journal) : Journal × Option ExecuteError :=
  match resultReport c.codec c.installation row with
  | none => (j, some .decoding)
  | some report =>
    match c.reportTask report with
    | none => (j, some .rpc)
    | some response =>
      if !response.terminal || response.committedSequence ≠ row.progressSeq then
        (j, some .conflict)
      else
        match acknowledgeTask id row.progressSeq j with
        | .error e => (j, some (.journal e))
        | .ok j' => (j', none)

/-- How far a run of `execute` gets before the operation. -/
inductive Begun where
  | returned (err : Option ExecuteError)
  | running (accepted : AcceptTaskResponse) (row : JournalRow)

/-- `execute` up to the operation. -/
def begin (notice : TaskAvailable) (j : Journal) : Journal × Begun :=
  match c.acceptTask notice with
  | none => (j, .returned (some .rpc))
  | some accepted =>
    if accepted.taskId ≠ notice.taskId ∨ accepted.payloadSha256 ≠ notice.payloadSha256 ∨
        sha256 accepted.payload ≠ notice.payloadSha256 ∨
        accepted.bindingEpoch ≠ c.installation.bindingEpoch ∨ accepted.kind ≠ notice.kind then
      (j, .returned (some .conflict))
    else
      match Daemon.acceptTask accepted.taskId accepted.payloadSha256 accepted.kind
          accepted.payload accepted.bindingEpoch j with
      | .error e => (j, .returned (some (.journal e)))
      | .ok (row, j) =>
        if row.terminal then
          let (j, err) := c.reportResult accepted.taskId row j
          (j, .returned err)
        else
          let active : Except OperationError Bool :=
            match c.maintenance with
            | none => .ok false
            | some maintenance =>
              if accepted.kind = TaskKind.upgradeDaemon ∨ accepted.kind = TaskKind.uninstall then
                maintenance.active accepted.taskId
              else .ok false
          match active with
          | .error err => (j, .returned (some (.maintenance err)))
          | .ok true => (j, .returned none)
          | .ok false =>
            match transition accepted.taskId .running none j with
            | .error e => (j, .returned (some (.journal e)))
            | .ok (row, j) => (j, .running accepted row)

/-- A transaction beside the operation. One that fails writes nothing. -/
def act (id : String) (j : Journal) : Activity → Journal
  | .progress report =>
    match transition id .running (some report) j with
    | .error _ => j
    | .ok (_, j') => j'
  | .acknowledge task seq =>
    match acknowledgeTask task seq j with
    | .error _ => j
    | .ok j' => j'

/-- Whether the operation went to the independent helper. -/
def handedOff (id : String) (row : JournalRow) (kind : TaskKind) : Bool :=
  (kind = .upgradeDaemon || kind = .uninstall) &&
    (c.operationError id row kind).any fun err => .handedOff ∈ err.causes

/-- `execute` after the operation. -/
def conclude (id : String) (d : Draft) (j : Journal) : Journal × Option ExecuteError :=
  match j.get? id with
  | none => (j, some (.journal .notFound))
  | some latest =>
    match c.marshal id latest d with
    | none => (j, some .encoding)
    | some (status, encoded) =>
      match transition id status (some encoded) j with
      | .error e => (j, some (.journal e))
      | .ok (row, j) => c.reportResult id row j

def execute (notice : TaskAvailable) (j : Journal) : Journal × Option ExecuteError :=
  match c.begin notice j with
  | (j, .returned err) => (j, err)
  | (j, .running accepted row) =>
    let j := c.activity.foldl (act accepted.taskId) j
    if c.handedOff accepted.taskId row accepted.kind then (j, none)
    else c.conclude accepted.taskId (c.draft accepted.taskId row accepted.kind) j

/-! ## The texts of a report -/

/-- A text that stays or becomes encodable: valid as it is, or long enough to be rewritten. -/
def Sound (limit : ℕ) (text : Bytes) : Prop := validString text = true ∨ limit < text.length

instance (limit : ℕ) (text : Bytes) : Decidable (Sound limit text) := by
  unfold Sound
  infer_instance

theorem bound_length_le (limit : ℕ) (text : Bytes) : (bound limit text).length ≤ limit := by
  unfold bound
  split_ifs with h
  · exact (limitString_spec text limit).2.1
  · omega

/-- The limit helps only the texts that exceed it. -/
theorem validString_bound_iff {limit : ℕ} {text : Bytes} :
    validString (bound limit text) = true ↔ Sound limit text := by
  unfold bound Sound
  by_cases h : limit < text.length
  · simp only [h, if_true, or_true, iff_true]
    exact (limitString_spec text limit).1
  · simp only [h, if_false, or_false]

variable {c : Client} {id : String} {row : JournalRow} {kind : TaskKind} {j j' : Journal}

/-- Whatever the operation returned, the message is within its limit. -/
theorem draft_message_length (c : Client) (id : String) (row : JournalRow) (kind : TaskKind) :
    (c.draft id row kind).message.length ≤ 8192 := by
  unfold draft
  split
  · exact bound_length_le 8192 (utf8 "Task payload cannot be decoded")
  · dsimp only
    split
    · show (bound 8192 []).length ≤ 8192
      apply bound_length_le
    · show (bound 8192 _).length ≤ 8192
      apply bound_length_le

theorem draft_status : (c.draft id row kind).status = c.status := by
  unfold draft
  split
  · rfl
  · dsimp only
    split <;> rfl

/-- The message is encodable exactly where the error of the operation is sound: the texts the
executor writes itself are valid. -/
theorem draft_message_valid_iff :
    validString (c.draft id row kind).message = true ↔
      ∀ err, c.operationError id row kind = some err → Sound 8192 err.text := by
  unfold draft operationError
  cases hspec : c.decodeSpec row.payload with
  | none =>
    simp only [Option.bind_none, reduceCtorEq, false_implies, implies_true, iff_true]
    exact validString_bound_iff.2 (.inl (validString_utf8 _))
  | some spec =>
    simp only [Option.bind_some]
    cases herror : (c.operate id row kind spec).error with
    | none =>
      simp only [reduceCtorEq, false_implies, implies_true, iff_true]
      exact validString_bound_iff.2 (.inl rfl)
    | some err =>
      simp only [Option.some.injEq, forall_eq']
      exact validString_bound_iff

theorem outcome?_isSome {d : Draft} :
    (c.outcome? d).isSome ↔
      validString d.message = true ∧ validString d.status.issue = true ∧
        validString d.status.networkInterface = true := by
  rw [← decodeText_isSome, ← decodeText_isSome, ← decodeText_isSome]
  unfold outcome?
  cases decodeText d.message <;> cases decodeText d.status.issue <;>
    cases decodeText d.status.networkInterface <;> simp

theorem outcome?_eq_some {d : Draft} {outcome : Outcome} (h : c.outcome? d = some outcome) :
    utf8 outcome.message = d.message ∧
      ∃ status, outcome.actualStatus = some status ∧ utf8 status.issue = d.status.issue := by
  simp only [outcome?, Option.bind_eq_bind, Option.bind_eq_some_iff, Option.pure_def,
    Option.some.injEq] at h
  obtain ⟨message, hmessage, issue, hissue, networkInterface, -, rfl⟩ := h
  exact ⟨decodeText_eq_some hmessage, _, rfl, decodeText_eq_some hissue⟩

/-! ## The journal under a run -/

/-- The task is in the journal and may still be written. -/
def Open (j : Journal) (id : String) : Prop := ∃ row, j.get? id = some row ∧ row.terminal = false

/-- A terminal report of the task is stored, within the limits of its texts. -/
structure Stored (c : Client) (id : String) (j : Journal) (row : JournalRow) (encoded : Bytes)
    (report : ReportTaskRequest) (status : MachineStatus) : Prop where
  found : j.get? id = some row
  terminal : row.terminal = true
  result : row.result = some encoded
  decodes : c.codec.unmarshal encoded = some report
  taskId : report.taskId = id
  message : (utf8 report.message).length ≤ 8192
  actualStatus : report.actualStatus = some status
  issue : (utf8 status.issue).length ≤ 4096

/-- Some terminal report of the task is stored. -/
def Reported (c : Client) (id : String) (j : Journal) : Prop :=
  ∃ row encoded report status, Stored c id j row encoded report status

theorem Reported.not_open (h : Reported c id j) : ¬ Open j id := by
  rintro ⟨row, hrow, hterminal⟩
  obtain ⟨row', _, _, _, h⟩ := h
  rw [h.found, Option.some.injEq] at hrow
  rw [← hrow, h.terminal] at hterminal
  exact absurd hterminal (by decide)

theorem transition_running_open {result : Option Bytes}
    (h : transition id .running result j = .ok (row, j')) (hopen : Open j id) : Open j' id := by
  obtain ⟨old, hold, hterminal⟩ := hopen
  obtain ⟨old', hold', hcases⟩ := transition_eq_ok h
  obtain rfl : old = old' := by rw [hold, Option.some.injEq] at hold'; exact hold'
  obtain ⟨hdone, -, -⟩ | ⟨-, -, rfl, rfl⟩ := hcases
  · rw [hterminal] at hdone
    exact absurd hdone (by decide)
  · exact ⟨_, j.get?_set_self id _, rfl⟩

/-- What happens beside an operation does not end its task. -/
theorem act_open {activity : Activity} (hopen : Open j id) : Open (act id j activity) id := by
  cases activity with
  | progress report =>
    unfold act
    dsimp only
    split
    · exact hopen
    · rename_i heq
      exact transition_running_open heq hopen
  | acknowledge task seq =>
    unfold act
    dsimp only
    split
    · exact hopen
    · rename_i heq
      obtain ⟨old, hold, -, hterminal, rfl⟩ := acknowledgeTask_eq_ok heq
      obtain ⟨row, hrow, hrunning⟩ := hopen
      have hne : task ≠ id := by
        rintro rfl
        rw [hold, Option.some.injEq] at hrow
        rw [hrow, hrunning] at hterminal
        exact absurd hterminal (by decide)
      exact ⟨row, by rw [j.get?_set_of_ne _ hne.symm]; exact hrow, hrunning⟩

theorem activity_open (activity : List Activity) (hopen : Open j id) :
    Open (activity.foldl (act id) j) id := by
  induction activity generalizing j with
  | nil => exact hopen
  | cons a activity ih => exact ih (act_open hopen)

theorem transition_of_open {old : JournalRow} {status : JournalStatus} {result : Option Bytes}
    (hold : j.get? id = some old) (hopen : old.terminal = false) (hstatus : status ≠ .accepted) :
    transition id status result j =
      .ok (old.advance status result, j.set id (old.advance status result)) := by
  simp only [transition, hold, found, ok_bind, hopen, Bool.false_eq_true, if_false,
    failIf_of_not hstatus]
  rfl

theorem acceptTask_get? {payloadHash : String} {payload : Bytes} {bindingEpoch : Int}
    (h : Daemon.acceptTask id payloadHash kind payload bindingEpoch j = .ok (row, j')) :
    j'.get? id = some row := by
  obtain ⟨hrow, rfl⟩ | ⟨-, -, rfl⟩ := acceptTask_eq_ok h
  · exact hrow
  · exact j.get?_set_self id row

/-- A run that reaches its operation leaves the task open. -/
theorem begin_open {notice : TaskAvailable} {accepted : AcceptTaskResponse}
    (h : c.begin notice j = (j', .running accepted row)) : Open j' accepted.taskId := by
  unfold begin at h
  split at h
  · simp at h
  split at h
  · simp at h
  split at h
  · simp at h
  rename_i accepted' _ _ _ _ row' j₁ haccept
  by_cases hterminal : row'.terminal
  · simp [hterminal] at h
  simp only [hterminal, Bool.false_eq_true, if_false] at h
  rw [Bool.not_eq_true] at hterminal
  split at h
  · simp at h
  · simp at h
  rw [transition_of_open (acceptTask_get? haccept) hterminal (by decide)] at h
  simp only [Prod.mk.injEq, Begun.running.injEq] at h
  obtain ⟨rfl, rfl, rfl⟩ := h
  exact ⟨_, j₁.get?_set_self _ _, rfl⟩

theorem reportResult_reported (h : Reported c id j) :
    Reported c id (c.reportResult id row j).1 := by
  unfold reportResult
  split
  · exact h
  split
  · exact h
  split_ifs
  · exact h
  split
  · exact h
  rename_i j' hack
  obtain ⟨old, hold, -, hterminal, rfl⟩ := acknowledgeTask_eq_ok hack
  obtain ⟨_, encoded, report, status, h⟩ := h
  obtain rfl := Option.some.inj (hold.symm.trans h.found)
  exact ⟨_, encoded, report, status,
    { h with
      found := j.get?_set_self id _
      terminal := hterminal
      result := h.result }⟩

end Client

/-- `proto.Marshal` refuses nothing but texts that are not valid UTF-8. -/
def ReportCodec.Total (codec : ReportCodec) : Prop := ∀ report, (codec.marshal report).isSome

namespace Client

variable {c : Client} {id : String} {row : JournalRow} {kind : TaskKind} {j j' : Journal}

/-- A report that is refused leaves the journal as it is. -/
theorem conclude_of_refused {d : Draft} (hopen : Open j id) (h : (c.outcome? d).isSome = false) :
    (c.conclude id d j).1 = j := by
  obtain ⟨latest, hlatest, -⟩ := hopen
  have hmarshal : c.marshal id latest d = none := by
    unfold marshal
    rw [Option.isSome_eq_false_iff, Option.isNone_iff_eq_none] at h
    rw [h]
    rfl
  simp only [conclude, hlatest, hmarshal]

/-- A report whose texts are valid and within their limits is stored. -/
theorem conclude_of_encodable {d : Draft} (hcodec : c.codec.Total) (hopen : Open j id)
    (hmessage : d.message.length ≤ 8192) (hissue : d.status.issue.length ≤ 4096)
    (h : (c.outcome? d).isSome = true) : Reported c id (c.conclude id d j).1 := by
  obtain ⟨latest, hlatest, hterminal⟩ := hopen
  obtain ⟨outcome, houtcome⟩ := Option.isSome_iff_exists.1 h
  obtain ⟨hbytes, status, hstatus, hissueBytes⟩ := outcome?_eq_some houtcome
  have hreport := hcodec (finalReport id c.installation latest outcome)
  obtain ⟨encoded, hencoded⟩ := Option.isSome_iff_exists.1 hreport
  have hmarshal : c.marshal id latest d =
      some (statusOf (finalReport id c.installation latest outcome), encoded) := by
    simp only [marshal, houtcome, hencoded, Option.bind_eq_bind, Option.bind_some, Option.pure_def]
  have haccepted : statusOf (finalReport id c.installation latest outcome) ≠ .accepted := by
    unfold statusOf
    split_ifs <;> decide
  have hdone : (latest.advance (statusOf (finalReport id c.installation latest outcome))
      (some encoded)).terminal = true := by
    unfold JournalRow.advance JournalRow.terminal statusOf
    split_ifs <;> rfl
  simp only [conclude, hlatest, hmarshal, transition_of_open hlatest hterminal haccepted]
  apply reportResult_reported
  exact ⟨_, encoded, _, status,
    { found := j.get?_set_self id _
      terminal := hdone
      result := rfl
      decodes := c.codec.unmarshal_marshal _ _ hencoded
      taskId := rfl
      message := by
        show (utf8 outcome.message).length ≤ 8192
        rw [hbytes]
        exact hmessage
      actualStatus := hstatus
      issue := by
        rw [hissueBytes]
        exact hissue }⟩

/-- The report of a run is encodable exactly where the texts that reach it are sound. -/
theorem draft_encodable_iff :
    (c.outcome? (c.draft id row kind)).isSome = true ↔
      (∀ err, c.operationError id row kind = some err → Sound 8192 err.text) ∧
        Sound 4096 c.shownIssue ∧ validString c.networkInterface = true := by
  have hissue : (c.draft id row kind).status.issue = bound 4096 c.shownIssue := by
    rw [draft_status]
    rfl
  have hinterface : (c.draft id row kind).status.networkInterface = c.networkInterface := by
    rw [draft_status]
    rfl
  rw [outcome?_isSome, draft_message_valid_iff, hissue, validString_bound_iff, hinterface]

/-- What a run that executes its operation does after it. -/
theorem execute_of_begin {notice : TaskAvailable} {accepted : AcceptTaskResponse}
    (hbegin : c.begin notice j = (j', .running accepted row))
    (hhelper : c.handedOff accepted.taskId row accepted.kind = false) :
    c.execute notice j =
      c.conclude accepted.taskId (c.draft accepted.taskId row accepted.kind)
        (c.activity.foldl (act accepted.taskId) j') := by
  simp only [execute, hbegin, hhelper, Bool.false_eq_true, if_false]

/-- A run whose report is refused leaves its task open: nothing terminal is stored. -/
theorem execute_of_refused {notice : TaskAvailable} {accepted : AcceptTaskResponse}
    (hbegin : c.begin notice j = (j', .running accepted row))
    (hhelper : c.handedOff accepted.taskId row accepted.kind = false)
    (h : (c.outcome? (c.draft accepted.taskId row accepted.kind)).isSome = false) :
    Open (c.execute notice j).1 accepted.taskId := by
  have hopen := activity_open c.activity (begin_open hbegin)
  rw [execute_of_begin hbegin hhelper, conclude_of_refused hopen h]
  exact hopen

/-- A run stores a terminal report exactly when the texts that reach it are sound: the error of
the operation, what the status shows as its issue, and the name of the interface, which no limit
rewrites. -/
theorem execute_stores_report_iff {notice : TaskAvailable} {accepted : AcceptTaskResponse}
    (hcodec : c.codec.Total) (hbegin : c.begin notice j = (j', .running accepted row))
    (hhelper : c.handedOff accepted.taskId row accepted.kind = false) :
    Reported c accepted.taskId (c.execute notice j).1 ↔
      (∀ err, c.operationError accepted.taskId row accepted.kind = some err →
        Sound 8192 err.text) ∧ Sound 4096 c.shownIssue ∧
          validString c.networkInterface = true := by
  rw [← draft_encodable_iff]
  constructor
  · intro hreported
    by_contra hrefused
    rw [Bool.not_eq_true] at hrefused
    exact hreported.not_open (execute_of_refused hbegin hhelper hrefused)
  · intro h
    have hopen := activity_open c.activity (begin_open hbegin)
    rw [execute_of_begin hbegin hhelper]
    apply conclude_of_encodable hcodec hopen (draft_message_length c _ row _) _ h
    rw [draft_status]
    exact bound_length_le 4096 _

end Client

/-! ## A candidate that fails its check -/

instance countableChar : Countable Char :=
  Function.Injective.countable (f := Char.toNat) fun _ _ h => Char.toNat_inj.1 h

instance countableString : Countable String :=
  Function.Injective.countable (f := String.toList) fun _ _ h => String.toList_inj.1 h

instance countableUInt8 : Countable UInt8 :=
  Function.Injective.countable (f := UInt8.toNat) fun _ _ h => UInt8.toNat_inj.1 h

deriving instance Countable for Installation, MachineStatus, RollbackState, ReportedState

deriving instance Countable for ReportTaskRequest

/-- A number for every report. -/
noncomputable def reportNumber : ReportTaskRequest → ℕ :=
  (Countable.exists_injective_nat ReportTaskRequest).choose

theorem reportNumber_injective : Function.Injective reportNumber :=
  (Countable.exists_injective_nat ReportTaskRequest).choose_spec

/-- The bytes of a report under the field numbers of `machine.proto`. -/
def reportBytes (r : ReportTaskRequest) (state rollback : Int) : Bytes :=
  (r.installation.elim [] fun i => Protobuf.delimited 1
      (Protobuf.stringField 1 i.installationId ++ Protobuf.int64Field 2 i.bindingEpoch)) ++
    Protobuf.stringField 2 r.taskId ++ Protobuf.stringField 3 r.payloadSha256 ++
    Protobuf.int64Field 4 r.sequence ++ Protobuf.int64Field 5 state ++
    Protobuf.stringField 6 r.phase ++ Protobuf.stringField 8 r.errorCode ++
    Protobuf.stringField 9 r.message ++ Protobuf.int64Field 10 rollback ++
    (r.actualStatus.elim [] fun s => Protobuf.delimited 11
      (Protobuf.stringField 2 s.daemonVersion ++ Protobuf.boolField 15 s.usageIncomplete ++
        Protobuf.stringField 16 s.issue ++ Protobuf.stringField 17 s.networkInterface ++
        Protobuf.int64Field 19 s.maintenanceStatus))

def candidatePayload : Bytes :=
  Protobuf.delimited 5 (Protobuf.delimited 1 (Protobuf.stringField 2 "2"))

def candidateNotice : TaskAvailable where
  taskId := "task"
  kind := .upgradeDaemon
  payloadSha256 := sha256 candidatePayload

def candidateAccepted : AcceptTaskResponse where
  taskId := "task"
  bindingEpoch := 1
  kind := .upgradeDaemon
  payload := candidatePayload
  payloadSha256 := sha256 candidatePayload

/-- A client whose upgrade fails with the error of a candidate command. -/
def candidateClient (codec : ReportCodec) (output : Bytes) : Client where
  installation := ⟨"installation", 1⟩
  codec
  acceptTask _ := some candidateAccepted
  reportTask _ := none
  getConfig _ := .error errConflict
  decodeSpec payload :=
    if payload = candidatePayload then some (.upgradeDaemon (some ⟨"2", "", "", "", "", 0⟩))
    else none
  inspect _ _ _ := .ok []
  core := none
  maintenance := some {
    active _ := .ok false
    beginUpgrade _ _ := some { text := utf8 "/task/candidate failed: exit status 1: " ++ output }
    beginUninstall _ := none }
  metrics := some ⟨utf8 "eth0"⟩
  activity := []
  now := 0
  version := "1"
  maintenanceStatus := 1
  usageIssue := []
  reportIssue := []
  persistentUsageIssue := []

def candidateRow : JournalRow where
  payloadHash := sha256 candidatePayload
  kind := .upgradeDaemon
  payload := candidatePayload
  bindingEpoch := 1
  status := .running
  progressSeq := 1

def candidateAcceptedRow : JournalRow where
  payloadHash := sha256 candidatePayload
  kind := .upgradeDaemon
  payload := candidatePayload
  bindingEpoch := 1

variable (codec : ReportCodec) (output : Bytes)

theorem candidate_begin :
    (candidateClient codec output).begin candidateNotice .empty =
      (Table.empty.set "task" candidateRow, .running candidateAccepted candidateRow) := by
  have hhash : sha256 candidatePayload ≠ "" := by decide +kernel
  have haccept : acceptTask "task" (sha256 candidatePayload) .upgradeDaemon candidatePayload 1
      .empty = .ok (candidateAcceptedRow, Table.empty.set "task" candidateAcceptedRow) := by
    simp only [acceptTask, Table.get?_empty, failIf, hhash]
    rfl
  have hrun : transition "task" .running none (Table.empty.set "task" candidateAcceptedRow) =
      .ok (candidateRow, Table.empty.set "task" candidateRow) := rfl
  have hopen : candidateAcceptedRow.terminal = false := rfl
  simp [Client.begin, candidateClient, candidateAccepted, candidateNotice, haccept, hopen, hrun]

theorem candidate_operationError :
    (candidateClient codec output).operationError "task" candidateRow .upgradeDaemon =
      some { text := utf8 "/task/candidate failed: exit status 1: " ++ output } := by
  simp [Client.operationError, candidateClient, candidateRow, Client.operate]

theorem candidate_not_handedOff :
    (candidateClient codec output).handedOff "task" candidateRow .upgradeDaemon = false := by
  simp [Client.handedOff, candidate_operationError]

/-- The report of the failed upgrade, for an output that is text. -/
def candidateReport (message : String) : ReportTaskRequest where
  installation := some ⟨"installation", 1⟩
  taskId := "task"
  payloadSha256 := sha256 candidatePayload
  sequence := 2
  state := .failed
  phase := "failed"
  progressPercent := none
  errorCode := "UPDATE_PREFLIGHT_FAILED"
  message
  rollback := .notNeeded
  actualStatus := some ⟨0, "1", 1, "", 0, true, "Proxy core status is not available", "eth0"⟩
  diagnosticJson := []

def missingLibrary : String := "/task/candidate failed: exit status 1: missing library"

/-- The protobuf encoding of one report; a zero byte, which starts no message, marks the codes of
the others. -/
noncomputable def candidateMarshal (r : ReportTaskRequest) : Bytes :=
  if r = candidateReport missingLibrary then reportBytes r 3 1
  else 0 :: List.replicate (reportNumber r) 0

theorem candidateMarshal_injective : Function.Injective candidateMarshal := by
  have htag : Protobuf.tag 1 2 = [10] := by decide
  have hhead : (reportBytes (candidateReport missingLibrary) 3 1).head? = some 10 := by
    simp [reportBytes, candidateReport, Protobuf.delimited, htag]
  intro r r' h
  unfold candidateMarshal at h
  split_ifs at h with hr hr' hr'
  · rw [hr, hr']
  · rw [hr] at h
    rw [h] at hhead
    exact absurd hhead (by simp)
  · rw [hr'] at h
    rw [← h] at hhead
    exact absurd hhead (by simp)
  · apply reportNumber_injective
    simpa using congrArg List.length h

noncomputable def candidateCodec : ReportCodec where
  marshal r := some (candidateMarshal r)
  unmarshal := Function.partialInv candidateMarshal
  unmarshal_marshal r bytes h := by
    rw [← Option.some.inj h]
    exact Function.partialInv_left candidateMarshal_injective r

theorem candidateCodec_total : candidateCodec.Total := fun _ => rfl

/-- The error of a candidate whose output is text reaches the journal. -/
theorem candidate_reported :
    Client.Reported (candidateClient candidateCodec (utf8 "missing library")) "task"
      ((candidateClient candidateCodec (utf8 "missing library")).execute candidateNotice
        .empty).1 := by
  apply (Client.execute_stores_report_iff candidateCodec_total (candidate_begin _ _)
    (candidate_not_handedOff _ _)).2
  constructor
  · intro err herr
    obtain rfl := Option.some.inj ((candidate_operationError _ _).symm.trans herr)
    exact .inl (by decide +kernel)
  · exact ⟨.inl (by decide +kernel), by decide +kernel⟩

/-- One stray byte of output, and the task stays running. -/
theorem rawOutput_stays_running :
    candidateCodec.Total ∧
      (∃ j row, (candidateClient candidateCodec [0xff]).begin candidateNotice .empty =
          (j, .running candidateAccepted row) ∧
        (candidateClient candidateCodec [0xff]).handedOff "task" row .upgradeDaemon = false) ∧
      ¬ Client.Reported (candidateClient candidateCodec [0xff]) "task"
        ((candidateClient candidateCodec [0xff]).execute candidateNotice .empty).1 := by
  refine ⟨candidateCodec_total, ⟨_, _, candidate_begin _ _, candidate_not_handedOff _ _⟩, ?_⟩
  have hrefused : ((candidateClient candidateCodec [0xff]).outcome?
      ((candidateClient candidateCodec [0xff]).draft "task" candidateRow .upgradeDaemon)).isSome =
      false := by
    rw [← Bool.not_eq_true, Client.draft_encodable_iff]
    rintro ⟨hsound, -⟩
    have hunsound : ¬ Client.Sound 8192
        (utf8 "/task/candidate failed: exit status 1: " ++ [0xff]) := by decide +kernel
    exact hunsound (hsound _ (candidate_operationError _ _))
  have hopen := Client.execute_of_refused (candidate_begin candidateCodec [0xff])
    (candidate_not_handedOff candidateCodec [0xff]) hrefused
  exact fun hreported => hreported.not_open hopen

end Bifurcation.Daemon
