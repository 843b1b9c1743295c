import Bifurcation.Daemon.Journal
import Bifurcation.Lib.Interleaving

/-!
# Upgrades of the daemon

`internal/updater`: the hand-off of `BeginUpgrade` (`prepare.go`), the helper's `RunUpgrade` and
`rollbackUpgrade`, `RecoverBeforeStart` and `ConfirmRecoveryReady` (`upgrade.go`), the results they
store (`report.go`) and the plan file (`types.go`); with what `executor.go` and `main.go` do around
them. Two processes take turns on one machine: the helper, and the daemon's service, which first
runs the recovery and then the daemon.

Every operation on the plan file, the journal, a file or the system is one step. The environment
decides whether it fails, what a command answers, and when a process is cut off. A file is given by
the SHA-256 of its content. That `systemctl stop` and `start` act on the service is left to the
environment: the service may stop and start at any time.
-/

namespace Bifurcation.Daemon.Updater

/-! ## The machine -/

inductive Phase where
  | updaterReady
  | switching
  | starting
  | localHealthy
  | rollingBack
  | restoredPendingHealth
  | resultPendingAck
  | completed
deriving DecidableEq

structure Plan where
  taskId : String
  payloadHash : String
  phase : Phase
  oldVersion : String
  newVersion : String
  oldSha256 : String
  newSha256 : String
  localIssue : String := ""
deriving DecidableEq

/-- `InstalledBinary`, and the files of the task's directory. -/
inductive File where
  | installedBinary
  | backup
  | candidate
  | helper
  | download
deriving DecidableEq

structure World where
  journal : Journal
  plan : Option Plan
  files : File → Option String
  /-- The unit of the helper is active. -/
  helperUnit : Bool
  /-- The binary that was last seen locally healthy, unless the installed one was replaced since. -/
  healthy : Option String
  /-- How often the installed binary was replaced. -/
  replaced : ℕ

/-- What the environment answers to one operation. -/
structure Answer where
  /-- The operation fails with this error. -/
  error : Option String := none
  /-- The command that starts the helper did start it. -/
  started : Bool := false
  /-- The issue a health check reports. -/
  text : String := ""
  /-- The panel's answer to a report. -/
  response : ReportTaskResponse := ⟨0, false⟩
deriving DecidableEq

/-- The task and the installation. -/
structure Site where
  codec : ReportCodec
  installation : Installation
  taskId : String
  payloadHash : String
  payload : Bytes
  /-- The artifact of the task. -/
  version : String
  sha256 : String
  /-- The version a binary was built with. -/
  versionOf : String → String
  /-- The status a process of a version reports. -/
  status : String → MachineStatus

abbrev Run (α : Type) := Thread Answer World α

/-- What a call returns: a value or an error. -/
abbrev Result (α : Type) := Except String α

/-! ## Operations -/

/-- An operation that the environment may let fail. -/
def attempt {α : Type} (f : Answer → World → Except String α × World) : Run (Result α) :=
  .atomic fun o w =>
    match o.error with
    | some err => (.error err, w)
    | none => f o w

def World.write (f : File) (digest : Option String) (w : World) : World :=
  { w with
    files := Function.update w.files f digest
    healthy := if f = .installedBinary then none else w.healthy
    replaced := if f = .installedBinary then w.replaced + 1 else w.replaced }

def fileSHA256 (f : File) : Run (Result String) := attempt fun _ w =>
  (found "no such file or directory" (w.files f), w)

def copyAtomic (source destination : File) : Run (Result Unit) := attempt fun _ w =>
  match w.files source with
  | none => (.error "no such file or directory", w)
  | some digest => (.ok (), w.write destination (some digest))

def rename (source destination : File) : Run (Result Unit) := attempt fun _ w =>
  match w.files source with
  | none => (.error "no such file or directory", w)
  | some digest => (.ok (), (w.write destination (some digest)).write source none)

/-- A command, or the check of an evidence file, that changes nothing here. -/
def command : Run (Result Unit) := attempt fun _ w => (.ok (), w)

/-- `systemctl show` of the helper's unit. -/
def helperActive : Run Bool := .atomic fun _ w => (w.helperUnit, w)

/-- `systemd-run`. A unit that is active is not started again. -/
def systemdRun : Run (Result Unit) := .atomic fun o w =>
  if w.helperUnit then (.error "Unit was already loaded", w)
  else
    match o.error with
    | some err => (.error err, { w with helperUnit := o.started })
    | none => (.ok (), { w with helperUnit := true })

/-- `waitLocal`: the daemon with this binary is locally healthy, with an issue or without. -/
def waitLocal (digest : String) : Run (Result String) := attempt fun o w =>
  (.ok o.text, { w with healthy := some digest })

def load : Run (Result (Option Plan)) := attempt fun _ w => (.ok w.plan, w)

/-- What the plan file holds after `save`. -/
def savedPlan (existing : Option Plan) (plan : Plan) : Option Plan :=
  match existing with
  | none => some plan
  | some old =>
    if old.taskId = plan.taskId ∧ old.phase = .completed ∧ plan.phase ≠ .updaterReady then some old
    else if old.taskId ≠ plan.taskId ∧ plan.phase = .completed then some old
    else some plan

def save (plan : Plan) : Run (Result Unit) := attempt fun _ w =>
  (.ok (), { w with plan := savedPlan w.plan plan })

/-- The text of a journal error. -/
def JournalError.text : JournalError → String
  | .conflict => "persistent identity or payload conflict"
  | .notFound => "task not found"
  | .constraint => "constraint failed"
  | .invalidTransition => "invalid task transition"

/-- `store.Task`. -/
def storeTask (id : String) : Run (Result JournalRow) := attempt fun _ w =>
  (found (JournalError.text .notFound) (w.journal.get? id), w)

/-- A transaction on the journal. -/
def transact (f : Journal → Except JournalError (JournalRow × Journal)) : Run (Result JournalRow) :=
  attempt fun _ w =>
    match f w.journal with
    | .ok (row, journal) => (.ok row, { w with journal })
    | .error err => (.error (JournalError.text err), w)

/-- `store.AcknowledgeTask`. -/
def storeAcknowledge (id : String) (seq : Int) : Run (Result Unit) := attempt fun _ w =>
  match acknowledgeTask id seq w.journal with
  | .ok journal => (.ok (), { w with journal })
  | .error err => (.error (JournalError.text err), w)

/-- `rpc.ReportTask`. -/
def reportTask : Run (Result ReportTaskResponse) := attempt fun o w => (.ok o.response, w)

section Programs

variable (site : Site)

def installation : Run (Result Installation) := attempt fun _ w => (.ok site.installation, w)

/-! ## Results -/

/-- The report `persist` stores. -/
def maintenanceReport (row : JournalRow) (phase : String) (terminal success : Bool)
    (errorCode message actualVersion : String) : ReportTaskRequest where
  installation := some site.installation
  taskId := site.taskId
  payloadSha256 := row.payloadHash
  sequence := row.progressSeq + 1
  state := if terminal then if success then .succeeded else .failed else .running
  phase
  progressPercent := none
  errorCode
  message
  rollback :=
    if errorCode = "ROLLBACK_FAILED" then .failed
    else if phase = "rolled_back" then .succeeded
    else .notNeeded
  actualStatus := if terminal then some (site.status actualVersion) else none
  diagnosticJson := []

def stateName (terminal success : Bool) : JournalStatus :=
  if terminal then if success then .succeeded else .failed else .running

def persist (phase : String) (terminal success : Bool)
    (errorCode message actualVersion : String) : Run (Result JournalRow) := do
  match ← storeTask site.taskId with
  | .error err => return .error err
  | .ok task =>
  if task.terminal then return .ok task
  match ← installation site with
  | .error err => return .error err
  | .ok installation =>
  if task.bindingEpoch ≠ installation.bindingEpoch then
    return .error (JournalError.text .conflict)
  match site.codec.marshal
      (maintenanceReport site task phase terminal success errorCode message actualVersion) with
  | none => return .error "string field contains invalid UTF-8"
  | some encoded =>
  transact (transition site.taskId (stateName terminal success) (some encoded))

def send (task : JournalRow) : Run (Result Bool) := do
  match resultReport site.codec site.installation task with
  | none => return .error "cannot parse invalid wire-format data"
  | some _ =>
  match ← installation site with
  | .error err => return .error err
  | .ok _ =>
  match ← reportTask with
  | .error err => return .error err
  | .ok response =>
  if response.committedSequence < task.progressSeq ∨
      task.terminal = true ∧ response.terminal = false then
    return .error "panel did not acknowledge maintenance result"
  if task.terminal = false then return .ok true
  if response.committedSequence ≠ task.progressSeq then
    return .error (JournalError.text .conflict)
  match ← storeAcknowledge site.taskId task.progressSeq with
  | .error err => return .error err
  | .ok () => return .ok true

def publish (phase : String) (actualVersion : String) (message : String := "") : Run (Result Bool) := do
  match ← persist site phase false false "" message actualVersion with
  | .error err => return .error err
  | .ok task => send site task

/-- The loop of `finish`: until the result is acknowledged, or the context is cancelled after
`tries` rounds. -/
def awaitAcknowledged : ℕ → JournalRow → Run (Result Unit)
  | 0, _ => return .error "context canceled"
  | tries + 1, task => do
    if task.acknowledged then return .ok ()
    match ← send site task with
    | .ok true => return .ok ()
    | _ =>
    match ← storeTask site.taskId with
    | .error err => return .error err
    | .ok task => awaitAcknowledged tries task

def finish (tries : ℕ) (plan : Plan) (phase : String) (success : Bool)
    (errorCode message actualVersion : String) : Run (Result Unit) := do
  match ← persist site phase true success errorCode message actualVersion with
  | .error err => return .error err
  | .ok task =>
  match ← save { plan with phase := .resultPendingAck } with
  | .error err => return .error err
  | .ok () =>
  match ← awaitAcknowledged site tries task with
  | .error err => return .error err
  | .ok () => save { plan with phase := .completed }

/-! ## The helper -/

def failBeforeSwitch (tries : ℕ) (plan : Plan) (message : String) : Run (Result Unit) :=
  finish site tries plan "failed" false "UPDATE_PREFLIGHT_FAILED" message plan.oldVersion

/-- The part of `rollbackUpgrade` that may fail. -/
def restore (plan : Plan) : Run (Result Unit) := do
  match ← fileSHA256 .backup with
  | .error err => return .error err
  | .ok digest =>
  if digest ≠ plan.oldSha256 then return .error "previous binary checksum changed"
  match ← copyAtomic .backup .installedBinary with
  | .error err => return .error err
  | .ok () =>
  match ← command with
  | .error err => return .error err
  | .ok () =>
  match ← waitLocal plan.oldSha256 with
  | .error err => return .error err
  | .ok _ => return .ok ()

def rollbackUpgrade (tries : ℕ) (plan : Plan) (cause : String) : Run (Result Unit) := do
  let plan := { plan with phase := .rollingBack }
  match ← save plan with
  | .error err => return .error err
  | .ok () =>
  let _ ← publish site "rolling_back" plan.oldVersion cause
  let _ ← command
  match ← restore plan with
  | .error err =>
    finish site tries plan "failed" false "ROLLBACK_FAILED"
      ("upgrade failed (" ++ cause ++ "); rollback failed: " ++ err) plan.oldVersion
  | .ok () => finish site tries plan "rolled_back" false "UPDATE_FAILED" cause plan.oldVersion

/-- `RunUpgrade` once the new binary runs. -/
def confirmUpgrade (tries : ℕ) (plan : Plan) : Run (Result Unit) := do
  match ← waitLocal plan.newSha256 with
  | .error err => rollbackUpgrade site tries plan err
  | .ok issue =>
  let plan := { plan with localIssue := issue, phase := .localHealthy }
  match ← save plan with
  | .error err => return .error err
  | .ok () =>
  let _ ← publish site "local_healthy" plan.newVersion plan.localIssue
  finish site tries plan "completed" true "" plan.localIssue plan.newVersion

/-- `RunUpgrade` once the plan says `switching`. -/
def switchBinary (tries : ℕ) (plan : Plan) : Run (Result Unit) := do
  let _ ← publish site "switching" plan.oldVersion
  match ← command with
  | .error err => rollbackUpgrade site tries plan err
  | .ok () =>
  match ← command with
  | .error err => rollbackUpgrade site tries plan err
  | .ok () =>
  match ← command with
  | .error err => rollbackUpgrade site tries plan err
  | .ok () =>
  match ← rename .candidate .installedBinary with
  | .error err => rollbackUpgrade site tries plan err
  | .ok () =>
  let plan := { plan with phase := .starting }
  match ← save plan with
  | .error err => rollbackUpgrade site tries plan err
  | .ok () =>
  let _ ← publish site "starting" plan.oldVersion
  match ← command with
  | .error err => rollbackUpgrade site tries plan err
  | .ok () => confirmUpgrade site tries plan

/-- `RunUpgrade` from a plan that says `updater_ready`. -/
def startUpgrade (tries : ℕ) (plan : Plan) : Run (Result Unit) := do
  match ← fileSHA256 .candidate with
  | .error _ => failBeforeSwitch site tries plan "verified candidate is missing or changed"
  | .ok candidateHash =>
  if candidateHash ≠ plan.newSha256 then
    failBeforeSwitch site tries plan "verified candidate is missing or changed"
  else
  match ← fileSHA256 .backup with
  | .error _ => failBeforeSwitch site tries plan "previous daemon backup is missing or changed"
  | .ok oldHash =>
  if oldHash ≠ plan.oldSha256 then
    failBeforeSwitch site tries plan "previous daemon backup is missing or changed"
  else
  match ← command with
  | .error err => failBeforeSwitch site tries plan err
  | .ok () =>
  match ← command with
  | .error err => failBeforeSwitch site tries plan err
  | .ok () =>
  let plan := { plan with phase := .switching }
  match ← save plan with
  | .error err => return .error err
  | .ok () => switchBinary site tries plan

def runUpgrade (tries : ℕ) : Run (Result Unit) := do
  match ← load with
  | .error err => return .error err
  | .ok none => return .error "upgrade handoff is missing"
  | .ok (some plan) =>
  if plan.phase = .completed then return .ok ()
  match ← storeTask plan.taskId with
  | .error err => return .error err
  | .ok task =>
  if task.payloadHash ≠ plan.payloadHash then
    return .error "upgrade task identity differs from handoff"
  if task.terminal then
    finish site tries plan "completed" (task.status = .succeeded) "" "" plan.newVersion
  else if plan.phase = .localHealthy ∨ plan.phase = .resultPendingAck then
    finish site tries plan "completed" true "" plan.localIssue plan.newVersion
  else if plan.phase ≠ .updaterReady then
    rollbackUpgrade site tries plan
      "independent updater was interrupted before local health confirmation"
  else startUpgrade site tries plan

/-! ## The recovery -/

/-- `RecoverBeforeStart` once no helper runs and the task has no result. -/
def restoreBeforeStart (plan : Plan) : Run (Result Unit) := do
  match ← fileSHA256 .backup with
  | .error err => return .error err
  | .ok backupHash =>
  if backupHash ≠ plan.oldSha256 then return .error "recovery backup checksum changed"
  match ← copyAtomic .backup .installedBinary with
  | .error err => return .error err
  | .ok () =>
  match ← persist site "rolling_back" false false ""
      "An unconfirmed switch was restored; awaiting local startup confirmation"
      plan.oldVersion with
  | .error err => return .error err
  | .ok _ => save { plan with phase := .restoredPendingHealth }

def recoverBeforeStart : Run (Result Unit) := do
  match ← load with
  | .error err => return .error err
  | .ok none => return .ok ()
  | .ok (some plan) =>
  if plan.phase = .completed then return .ok ()
  if ← helperActive then return .ok ()
  match ← storeTask plan.taskId with
  | .error err => return .error err
  | .ok task =>
  if task.terminal then return .ok ()
  if plan.phase = .localHealthy ∨ plan.phase = .resultPendingAck then
    match ← persist site "completed" true true "" "" plan.newVersion with
    | .error err => return .error err
    | .ok _ => return .ok ()
  else restoreBeforeStart site plan

/-- `exe` is the binary of the process. -/
def confirmRecoveryReady (exe : String) : Run (Result Unit) := do
  match ← load with
  | .error err => return .error err
  | .ok none => return .ok ()
  | .ok (some plan) =>
  if plan.phase ≠ .restoredPendingHealth then return .ok ()
  match ← command with
  | .error err => return .error err
  | .ok () =>
  if exe ≠ plan.oldSha256 ∨ site.versionOf exe ≠ plan.oldVersion then
    return .error "recovery did not start the verified previous daemon"
  match ← persist site "rolled_back" true false "UPDATE_INTERRUPTED"
      "The retained helper restored the previous daemon and local startup was confirmed"
      plan.oldVersion with
  | .error err => return .error err
  | .ok _ => save { plan with phase := .resultPendingAck }

/-! ## The daemon -/

/-- The plan of the hand-off. -/
def handoffPlan (exe oldDigest : String) : Plan where
  taskId := site.taskId
  payloadHash := site.payloadHash
  phase := .updaterReady
  oldVersion := site.versionOf exe
  newVersion := site.version
  oldSha256 := oldDigest
  newSha256 := site.sha256.toLower

def ensureIdle : Run (Result Unit) := do
  match ← load with
  | .error err => return .error err
  | .ok none => return .ok ()
  | .ok (some plan) =>
  if plan.phase = .completed then return .ok ()
  match ← storeTask plan.taskId with
  | .error err => return .error err
  | .ok task =>
  if task.acknowledged then return .ok ()
  return .error "another maintenance operation is awaiting completion"

/-- The candidate is downloaded and its digest verified. -/
def downloadBinary : Run (Result Unit) := attempt fun _ w =>
  (.ok (), w.write .download (some site.sha256.toLower))

/-- The hand-off: the plan is saved and the helper started. `none` is `ErrHandedOff`. -/
def handOff (plan : Plan) : Run (Option String) := do
  match ← save plan with
  | .error err => return some err
  | .ok () =>
  let _ ← publish site "updater_ready" plan.oldVersion
  match ← systemdRun with
  | .ok () => return none
  | .error err =>
  let _ ← save { plan with phase := .completed }
  return some err

def beginUpgrade (exe : String) : Run (Option String) := do
  match ← command with
  | .error err => return some err
  | .ok () =>
  match ← ensureIdle with
  | .error err => return some err
  | .ok () =>
  let _ ← publish site "downloading" (site.versionOf exe)
  match ← downloadBinary site with
  | .error err => return some err
  | .ok () =>
  -- The candidate's platform, capabilities and configuration check.
  match ← command with
  | .error err => return some err
  | .ok () =>
  let _ ← publish site "verified" (site.versionOf exe)
  match ← fileSHA256 .installedBinary with
  | .error err => return some err
  | .ok oldDigest =>
  if oldDigest ≠ exe then return some "installed daemon changed outside this operation"
  match ← copyAtomic .installedBinary .backup with
  | .error err => return some err
  | .ok () =>
  match ← copyAtomic .installedBinary .helper with
  | .error err => return some err
  | .ok () =>
  match ← copyAtomic .download .candidate with
  | .error err => return some err
  | .ok () =>
  -- `ensureRecovery`.
  match ← command with
  | .error err => return some err
  | .ok () => handOff site (handoffPlan site exe oldDigest)

/-- `Controller.Acknowledge`. -/
def acknowledge : Run (Result Unit) := do
  match ← load with
  | .error err => return .error err
  | .ok none => return .ok ()
  | .ok (some plan) =>
  if plan.taskId ≠ site.taskId then return .ok ()
  save { plan with phase := .completed }

def reportResult (journal : JournalRow) : Run (Result Unit) := do
  match resultReport site.codec site.installation journal with
  | none => return .error "cannot parse invalid wire-format data"
  | some _ =>
  match ← reportTask with
  | .error err => return .error err
  | .ok response =>
  if response.terminal = false ∨ response.committedSequence ≠ journal.progressSeq then
    return .error (JournalError.text .conflict)
  match ← storeAcknowledge site.taskId journal.progressSeq with
  | .error err => return .error err
  | .ok () => acknowledge site

/-- `Controller.Active`. -/
def active : Run (Result Bool) := do
  match ← load with
  | .error err => return .error err
  | .ok none => return .ok false
  | .ok (some plan) =>
  return .ok (plan.taskId = site.taskId ∧ plan.phase ≠ .completed)

/-- `execute` once the upgrade could not be handed off. -/
def storeFailure (exe err : String) : Run (Result Unit) := do
  match ← storeTask site.taskId with
  | .error err => return .error err
  | .ok journal =>
  match site.codec.marshal (finalReport site.taskId site.installation journal
      { errorCode := "UPDATE_PREFLIGHT_FAILED"
        message := err
        rollback := .notNeeded
        actualStatus := some (site.status (site.versionOf exe))
        diagnosticJson := [] }) with
  | none => return .error "string field contains invalid UTF-8"
  | some encoded =>
  match ← transact (transition site.taskId .failed (some encoded)) with
  | .error err => return .error err
  | .ok journal => reportResult site journal

/-- `execute` for an upgrade the panel offers. -/
def execute (exe : String) : Run (Result Unit) := do
  match ← transact (acceptTask site.taskId site.payloadHash .upgradeDaemon site.payload
      site.installation.bindingEpoch) with
  | .error err => return .error err
  | .ok journal =>
  if journal.terminal then reportResult site journal
  else
  match ← active site with
  | .error err => return .error err
  | .ok true => return .ok ()
  | .ok false =>
  match ← transact (transition site.taskId .running none) with
  | .error err => return .error err
  | .ok _ =>
  match ← beginUpgrade site exe with
  | none => return .ok ()
  | some err => storeFailure site exe err

/-- `flushResults`, as far as this task goes. -/
def flushResults : Run (Result Unit) := do
  match ← storeTask site.taskId with
  | .error err => return .error err
  | .ok journal =>
  if journal.terminal = false ∨ journal.acknowledged then return .ok ()
  reportResult site journal

/-- What the client of a running daemon does about the task. -/
inductive Job where
  | execute
  | flushResults

def serve (exe : String) : List Job → Run Unit
  | [] => return ()
  | .execute :: jobs => do
    let _ ← execute site exe
    serve exe jobs
  | .flushResults :: jobs => do
    let _ ← flushResults site
    serve exe jobs

/-- The service: the recovery, then the daemon from the installed binary. -/
def service (jobs : List Job) : Run Unit := do
  match ← recoverBeforeStart site with
  | .error _ => return ()
  | .ok () =>
  match ← fileSHA256 .installedBinary with
  | .error _ => return ()
  | .ok exe =>
  match ← confirmRecoveryReady site exe with
  | .error _ => return ()
  | .ok () => serve site exe jobs

end Programs

/-! ## Runs -/

/-- A machine with the processes that run on it. -/
structure Machine where
  world : World
  helper : Option (Run (Result Unit))
  daemon : Option (Run Unit)

inductive Event where
  | helper (answer : Answer)
  | helperStops
  /-- A step of the service. A helper it starts gives up after `tries` reports. -/
  | daemon (answer : Answer) (tries : ℕ)
  | daemonStops
  | daemonStarts (jobs : List Job)

/-- The world without a helper. -/
def World.withoutHelper (w : World) : World := { w with helperUnit := false }

def Machine.step (site : Site) (m : Machine) : Event → Machine
  | .helper answer =>
    match m.helper with
    | some (.step act next) =>
      { m with world := act answer m.world, helper := some (next answer m.world) }
    | some (.done _) => { m with world := m.world.withoutHelper, helper := none }
    | none => m
  | .helperStops => { m with world := m.world.withoutHelper, helper := none }
  | .daemon answer tries =>
    match m.daemon with
    | some (.step act next) =>
      { world := act answer m.world
        helper :=
          if (act answer m.world).helperUnit = true ∧ m.world.helperUnit = false then
            some (runUpgrade site tries)
          else m.helper
        daemon := some (next answer m.world) }
    | some (.done _) => { m with daemon := none }
    | none => m
  | .daemonStops => { m with daemon := none }
  | .daemonStarts jobs =>
    match m.daemon with
    | some _ => m
    | none => { m with daemon := some (service site jobs) }

end Bifurcation.Daemon.Updater
