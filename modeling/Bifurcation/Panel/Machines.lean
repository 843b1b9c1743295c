import Bifurcation.Panel.Schema
import Bifurcation.Lib.Sha256

/-!
# Machines and tasks

`modules/machines/store.ts` and the handlers of `rpc/machine-service.ts` over it. A handler
authenticates the bearer token, checks the installation and calls the store, with nothing in
between, so each call acts on the row it authenticated.

The handlers also refuse requests whose fields are too long or out of range; such a request
never reaches the store and is not a call here.
-/

namespace Bifurcation.Panel

/-! ## Reading -/

def isTokenChar (c : Char) : Bool := c.isAlphanum || c = '_' || c = '-'

/-- `/^[A-Za-z0-9_-]{16,128}$/`. -/
def isIdentity (s : String) : Bool :=
  s.toList.all isTokenChar && 16 ≤ s.length && s.length ≤ 128

/-- The token of a `Bearer` header: `/^Bearer (bm_[A-Za-z0-9_-]{43})$/`. -/
def bearerToken (header : Option String) : Option String := do
  let header ← header
  if "Bearer bm_".toList.isPrefixOf header.toList then
    let secret := header.toList.drop 10
    if secret.length = 43 ∧ secret.all isTokenChar then
      some ("bm_" ++ String.ofList secret)
    else none
  else none

/-- `tokenHash`. -/
def tokenHash (token : String) : String := sha256 token.toUTF8.toList

def integerSequence (value : Int) (name : String) (allowZero : Bool) : Except PanelError Int := do
  failIf (value < (if allowZero then 0 else 1) ∨ value > maxSafeInteger)
    (.connect (name ++ " is out of range") .invalidArgument)
  return value

/-- A machine that was not removed. -/
def get (db : Database) (id : String) : Except PanelError MachineRow :=
  found (.app "MACHINE_NOT_FOUND" "机器不存在" 404)
    ((db.machines.get? id).filter fun row => row.removedAt.isNone)

def isUninstalled (db : Database) (id : String) (bindingEpoch : Int) : Bool :=
  db.tasks.rows.any fun x =>
    x.2.machineId = id && x.2.bindingEpoch = bindingEpoch && x.2.kind = .uninstall &&
      x.2.state = .succeeded

/-- The machine whose token the header carries. -/
def authenticate (db : Database) (header : Option String) :
    Except PanelError (String × MachineRow) := do
  let token ← found (.connect "invalid machine token" .unauthenticated) (bearerToken header)
  found (.connect "invalid machine token" .unauthenticated)
    (db.machines.rows.find? fun x => x.2.tokenHash = tokenHash token && x.2.removedAt.isNone)

/-- `authenticate` of the router, for every method but `ReportTask`. -/
def authenticateActive (db : Database) (header : Option String) :
    Except PanelError (String × MachineRow) := do
  let machine ← authenticate db header
  failIf (isUninstalled db machine.1 machine.2.bindingEpoch)
    (.connect "MACHINE_UNINSTALLED" .failedPrecondition)
  return machine

def assertInstallation (row : MachineRow) (identity : Option Installation)
    (allowInitial : Bool) : Except PanelError Installation := do
  let identity ← found (.connect "invalid installation identity" .invalidArgument)
    (identity.filter fun i => isIdentity i.installationId)
  let epoch ← integerSequence identity.bindingEpoch "binding epoch" allowInitial
  match row.installationId with
  | some installed => do
    failIf (installed ≠ identity.installationId) (.connect "INSTANCE_CONFLICT" .failedPrecondition)
    failIf (epoch ≠ row.bindingEpoch ∧ ¬ (allowInitial = true ∧ epoch = 0))
      (.connect "STALE_BINDING" .failedPrecondition)
    return identity
  | none => do
    failIf (allowInitial = false) (.connect "machine is not enrolled" .failedPrecondition)
    failIf (epoch ≠ 0) (.connect "STALE_BINDING" .failedPrecondition)
    return identity

/-! ## Binding -/

/-- What a daemon says about itself when it opens its task stream. -/
structure DaemonInfo where
  daemonVersion : String
  os : String
  arch : String
  supportedTasks : List Int

def Database.setMachine (db : Database) (id : String) (row : MachineRow) : Database :=
  { db with machines := db.machines.set id row }

/-- The row a successful `bind` leaves. -/
def boundRow (row : MachineRow) (identity : Installation) (info : DaemonInfo) (now : Int) :
    MachineRow :=
  { row with
    installationId := some identity.installationId
    bindingEpoch := if row.bindingEpoch = 0 then 1 else row.bindingEpoch
    sessionEpoch := row.sessionEpoch + 1
    statusSequence := 0
    daemonVersion := some info.daemonVersion
    os := some info.os
    arch := some info.arch
    supportedTasks := info.supportedTasks
    lastSeenAt := some now }

def bind (id : String) (identity : Option Installation) (info : DaemonInfo) (now : Int)
    (db : Database) : Except PanelError (MachineRow × Database) := do
  let current ← found (.connect "invalid machine" .unauthenticated)
    ((db.machines.get? id).filter fun row => row.removedAt.isNone)
  let identity ← assertInstallation current identity true
  failIf (isUninstalled db id current.bindingEpoch)
    (.connect "MACHINE_UNINSTALLED" .failedPrecondition)
  let updated := boundRow current identity info now
  return (updated, db.setMachine id updated)

/-- The unique index on `token_hash`, for a write to machine `id`. -/
def tokenTaken (db : Database) (id hash : String) : Prop :=
  ∃ x ∈ db.machines.rows, x.1 ≠ id ∧ x.2.tokenHash = hash

instance (db : Database) (id hash : String) : Decidable (tokenTaken db id hash) := by
  unfold tokenTaken; infer_instance

/-- `create`, with the id and the token it draws. -/
def create (id token : String) (now : Int) (db : Database) : Except PanelError Database := do
  failIf (tokenTaken db id (tokenHash token)) .constraint
  let machines ← found .constraint
    (db.machines.insert? id { tokenHash := tokenHash token, createdAt := now })
  return { db with machines }

/-- `update`: the names of the machine are left out. -/
def update (id : String) (expectedVersion : Int) (db : Database) :
    Except PanelError Database := do
  let row ← get db id
  failIf (row.version ≠ expectedVersion) (.app "VERSION_CONFLICT" "机器信息已变化，请刷新后重试" 409)
  return db.setMachine id { row with version := row.version + 1 }

/-- The queued tasks of a machine. -/
def queuedOf (id : String) : String → TaskRow → Bool :=
  fun _ task => task.machineId = id && task.state = .queued

/-- Cancel the queued tasks of a machine. -/
def cancelQueued (id : String) (now : Int) (db : Database) : Database :=
  { db with tasks := db.tasks.updateWhere (queuedOf id) fun task =>
      { task with state := .canceled, updatedAt := now } }

/-- The accepted and running tasks of a machine. -/
def activeOf (id : String) (task : TaskRow) : Bool :=
  task.machineId = id && (task.state = .accepted || task.state = .running)

/-- The row a `rebind` leaves. -/
def reboundRow (row : MachineRow) (token : String) : MachineRow :=
  { row with
    installationId := none
    bindingEpoch := row.bindingEpoch + 1
    sessionEpoch := row.sessionEpoch + 1
    tokenHash := tokenHash token
    tokenGeneration := row.tokenGeneration + 1
    statusSequence := 0
    status := none
    daemonVersion := none
    os := none
    arch := none
    supportedTasks := []
    lastSeenAt := none
    version := row.version + 1 }

def rebind (id : String) (expectedVersion : Int) (token : String) (now : Int) (db : Database) :
    Except PanelError Database := do
  let row ← get db id
  failIf (row.version ≠ expectedVersion) (.app "VERSION_CONFLICT" "机器信息已变化，请刷新后重试" 409)
  failIf (db.tasks.rows.any (activeOf id ·.2)) (.app "TASK_ACTIVE" "仍有未确认任务，请先核对执行结果" 409)
  failIf (tokenTaken db id (tokenHash token)) .constraint
  return cancelQueued id now (db.setMachine id (reboundRow row token))

/-- The row a `resetToken` leaves. -/
def resetRow (row : MachineRow) (token : String) : MachineRow :=
  { row with
    tokenHash := tokenHash token
    tokenGeneration := row.tokenGeneration + 1
    sessionEpoch := row.sessionEpoch + 1
    version := row.version + 1
    lastSeenAt := none }

def resetToken (id token : String) (db : Database) : Except PanelError Database := do
  let row ← get db id
  failIf (tokenTaken db id (tokenHash token)) .constraint
  return db.setMachine id (resetRow row token)

def remove (id : String) (now : Int) (db : Database) : Except PanelError Database := do
  let row ← get db id
  return cancelQueued id now (db.setMachine id
    { row with removedAt := some now, sessionEpoch := row.sessionEpoch + 1 })

/-! ## Tasks -/

/-- The maintenance statuses that come with a reason, and its text. -/
def maintenanceReason (status : Int) : Option String :=
  if status = 2 then some
    "该节点由容器管理，请更新镜像并重建容器。面板无法在此安装方式下升级或卸载节点程序。"
  else if status = 3 then some
    "在线维护仅支持 Linux systemd 节点，请通过当前系统的部署工具更新程序。"
  else if status = 4 then some
    "daemon 不在标准安装路径。请在节点端手动更新，或使用安装命令部署为 systemd 服务。"
  else if status = 5 then some
    "节点状态目录不符合在线维护要求，请将其配置为独立的绝对路径后重启 daemon。"
  else if status = 6 then some
    "程序、配置或状态目录无法安全访问，或使用了符号链接。请检查节点文件和权限后重启 daemon。"
  else if status = 7 then some
    "未找到安装器管理的 systemd 服务。请在节点端手动更新，或使用安装命令完成标准安装。"
  else none

/-- `maintenanceInfo`: nothing when maintenance is available, else why it is not. Task
capabilities remain the authority; a report can never grant a task that was not advertised. -/
def maintenanceRefusal (status : Int) (supported : Bool) : Option String :=
  match maintenanceReason status with
  | some description => some description
  | none =>
    if supported = true ∧ (status = 1 ∨ status = 0) then none
    else some "当前 daemon 未上报维护原因。请检查节点安装方式；旧版 daemon 需在节点端更新后才能报告具体原因。"

/-- The row of a new task. -/
def newTask (id : String) (bindingEpoch : Int) (kind : TaskKind) (payload : Bytes)
    (requestKey : String) (now : Int) : TaskRow where
  machineId := id
  bindingEpoch := bindingEpoch
  kind := kind
  payload := payload
  payloadHash := sha256 payload
  requestKey := requestKey
  createdAt := now
  updatedAt := now

/-- Only work that has not been accepted can be coalesced into a new target. -/
def coalesced (id : String) (bindingEpoch : Int) : String → TaskRow → Bool := fun _ task =>
  task.machineId = id && task.bindingEpoch = bindingEpoch && task.kind = .applyConfig &&
    task.state = .queued

/-- Supersede the queued configuration task of a machine. -/
def supersede (id : String) (bindingEpoch now : Int) (tasks : Table String TaskRow) :
    Table String TaskRow :=
  tasks.updateWhere (coalesced id bindingEpoch) fun task =>
    { task with state := .superseded, updatedAt := now }

/-- The checks of `enqueueTask` on an upgrade or an uninstall. -/
def checkMaintenance (machine : MachineRow) (kind : TaskKind) (supported : Bool) :
    Except PanelError Unit :=
  if kind = .upgradeDaemon ∨ kind = .uninstall then
    match maintenanceRefusal ((machine.status.map (·.maintenanceStatus)).getD 0) supported with
    | some description => .error (.app "TASK_UNSUPPORTED" description 409)
    | none => .ok ()
  else .ok ()

/-- The checks of `enqueueTask` on the machine, before a new task is made. -/
def enqueueable (db : Database) (id : String) (machine : MachineRow) (kind : TaskKind) :
    Except PanelError Unit := do
  failIf (isUninstalled db id machine.bindingEpoch)
    (.app "MACHINE_UNINSTALLED" "节点程序已卸载，需要重新绑定实例后接入" 409)
  failIf (machine.installationId = none) (.app "MACHINE_NOT_ENROLLED" "机器尚未接入" 409)
  let supported := machine.supportedTasks.contains kind.number
  checkMaintenance machine kind supported
  failIf (supported = false) (.app "TASK_UNSUPPORTED" "此 daemon 尚不支持该任务" 409)

/-- `enqueueTask`, with the id it draws: the id of the task and the database. -/
def enqueueTask (codec : Codec) (id : String) (spec : TaskSpec) (requestKey taskId : String)
    (now : Int) (db : Database) : Except PanelError (String × Database) := do
  let machine ← get db id
  let kind ← found (.app "INVALID_TASK" "任务内容为空" 422) spec.kind
  let payload := codec.taskSpecToBinary spec
  failIf (payload.length > 1024 * 1024) (.app "TASK_TOO_LARGE" "任务内容过大" 422)
  match db.tasks.rows.find? fun x => x.2.machineId = id && x.2.requestKey = requestKey with
  | some existing => do
    -- Hash is defined over raw protobuf bytes, not base64 or reserialized JSON.
    failIf (existing.2.payloadHash ≠ sha256 payload)
      (.app "REQUEST_CONFLICT" "请求标识已用于另一操作" 409)
    return (existing.1, db)
  | none => do
    enqueueable db id machine kind
    let tasks := if kind = .applyConfig then supersede id machine.bindingEpoch now db.tasks
      else db.tasks
    let tasks ← found .constraint
      (tasks.insert? taskId (newTask id machine.bindingEpoch kind payload requestKey now))
    return (taskId, { db with tasks })

def pendingState (state : TaskState) : Bool :=
  state = .queued || state = .accepted || state = .running

/-- `ORDER BY created_at, rowid LIMIT 1`: rows are in the order of their `rowid`. -/
def oldest : List (String × TaskRow) → Option (String × TaskRow)
  | [] => none
  | x :: xs =>
    match oldest xs with
    | some y => if y.2.createdAt < x.2.createdAt then some y else some x
    | none => some x

/-- A task of a machine's epoch that is not complete. -/
def pendingOf (id : String) (bindingEpoch : Int) (task : TaskRow) : Bool :=
  task.machineId = id && task.bindingEpoch = bindingEpoch && pendingState task.state

/-- The oldest pending task of a machine's epoch. -/
def pending (db : Database) (id : String) (bindingEpoch : Int) : Option (String × TaskRow) :=
  oldest (db.tasks.rows.filter fun x => pendingOf id bindingEpoch x.2)

/-- The task of a machine's current epoch. -/
def findTask (db : Database) (id : String) (row : MachineRow) (taskId : String) :
    Except PanelError TaskRow :=
  found (.connect "task not found" .notFound) ((db.tasks.get? taskId).filter fun task =>
    task.machineId = id && task.bindingEpoch = row.bindingEpoch)

def Database.setTask (db : Database) (taskId : String) (task : TaskRow) : Database :=
  { db with tasks := db.tasks.set taskId task }

def accept (id : String) (row : MachineRow) (sessionEpoch : Int) (taskId hash : String)
    (now : Int) (db : Database) : Except PanelError (TaskRow × Database) := do
  let epoch ← integerSequence sessionEpoch "session epoch" false
  failIf (epoch ≠ row.sessionEpoch) (.connect "STALE_SESSION" .failedPrecondition)
  let task ← findTask db id row taskId
  failIf (task.payloadHash ≠ hash) (.connect "TASK_PAYLOAD_CONFLICT" .alreadyExists)
  failIf (task.state = .canceled ∨ task.state = .superseded)
    (.connect "task is no longer executable" .failedPrecondition)
  failIf (task.state = .succeeded ∨ task.state = .failed)
    (.connect "task is already complete" .failedPrecondition)
  if task.state ≠ .queued then return (task, db)
  else do
    failIf (db.tasks.rows.any fun x => activeOf id x.2 && x.1 ≠ taskId)
      (.connect "another task is active" .failedPrecondition)
    let task := { task with state := .accepted, updatedAt := now }
    return (task, db.setTask taskId task)

/-- `reportStatus`: the committed sequence, and the database. -/
def reportStatus (id : String) (row : MachineRow) (sessionEpoch sequence : Int)
    (status : MachineStatus) (now : Int) (db : Database) :
    Except PanelError (Int × Database) := do
  let epoch ← integerSequence sessionEpoch "session epoch" false
  failIf (epoch ≠ row.sessionEpoch) (.connect "STALE_SESSION" .failedPrecondition)
  let seq ← integerSequence sequence "status sequence" false
  if seq ≤ row.statusSequence then return (row.statusSequence, db)
  else return (seq, db.setMachine id
    { row with statusSequence := seq, status := some status
               daemonVersion := some status.daemonVersion, lastSeenAt := some now })

/-- The state a report asks for. -/
def reportedState : ReportedState → Option TaskState
  | .unspecified => none
  | .running => some .running
  | .succeeded => some .succeeded
  | .failed => some .failed

/-- JavaScript's `text || null`. -/
def orNull (s : String) : Option String := if s = "" then none else some s

/-- The version an upgrade task installs. -/
def expectedVersion (codec : Codec) (task : TaskRow) : Except PanelError (Option String) := do
  match ← found .protobuf (codec.taskSpecFromBinary task.payload) with
  | .upgradeDaemon version => return version
  | _ => return none

/-- An upgrade has succeeded only when the new daemon has reconnected. -/
def upgradeConfirmed (row : MachineRow) (request : ReportTaskRequest) (version : Option String) :
    Bool :=
  match version with
  | none => false
  | some version =>
    version ≠ "" && 1 ≤ row.statusSequence && row.daemonVersion = some version &&
      row.status.map (·.daemonVersion) = some version &&
      request.actualStatus.map (·.daemonVersion) = some version

/-- The stored diagnostic of a report. -/
def diagnosticOf (codec : Codec) (diagnosticJson : Bytes) : Except PanelError (Option String) := do
  if diagnosticJson.length = 0 then return none
  else do
    failIf (diagnosticJson.length > 262144) (.connect "diagnostic too large" .resourceExhausted)
    let text ← found (.connect "invalid diagnostic JSON" .invalidArgument)
      (codec.diagnosticText diagnosticJson)
    return some text

/-- The task row after a report. -/
def reportedTask (task : TaskRow) (request : ReportTaskRequest) (state : TaskState)
    (hash : String) (diagnostic : Option String) (now : Int) : TaskRow :=
  { task with
    state, progressSequence := request.sequence, reportHash := some hash
    phase := orNull request.phase, progressPercent := request.progressPercent
    message := orNull request.message, errorCode := orNull request.errorCode
    diagnosticJson := diagnostic, rollback := some request.rollback, updatedAt := now }

/-- The checks of `reportTask` on an upgrade that reports success. -/
def checkUpgrade (codec : Codec) (row : MachineRow) (task : TaskRow)
    (request : ReportTaskRequest) : Except PanelError Unit :=
  if task.kind = .upgradeDaemon ∧ request.state = .succeeded then do
    let version ← expectedVersion codec task
    failIf (upgradeConfirmed row request version = false)
      (.connect "WAITING_FOR_DAEMON_RECONNECT" .failedPrecondition)
  else pure ()

/-- The part of `reportTask` that stores a new report. -/
def storeReport (codec : Codec) (id : String) (row : MachineRow) (request : ReportTaskRequest)
    (task : TaskRow) (now : Int) (db : Database) :
    Except PanelError (ReportTaskResponse × Database) := do
  failIf (¬ (task.state = .accepted ∨ task.state = .running))
    (.connect "invalid task transition" .failedPrecondition)
  checkUpgrade codec row task request
  let state ← found (.connect "invalid task state" .invalidArgument) (reportedState request.state)
  let diagnostic ← diagnosticOf codec request.diagnosticJson
  let hash := sha256 (codec.reportTaskToBinary request)
  let db := db.setTask request.taskId (reportedTask task request state hash diagnostic now)
  let db := if state = .succeeded ∧ task.kind = .uninstall then cancelQueued id now db else db
  return (⟨request.sequence, decide (state ≠ .running)⟩, db)

/-- The final report of an uninstall, sent again. -/
def replaysUninstall (task : TaskRow) (seq : Int) (hash : String) : Prop :=
  task.kind = .uninstall ∧ task.state = .succeeded ∧ seq = task.progressSequence ∧
    some hash = task.reportHash

instance (task : TaskRow) (seq : Int) (hash : String) :
    Decidable (replaysUninstall task seq hash) := by
  unfold replaysUninstall; infer_instance

def reportTask (codec : Codec) (id : String) (row : MachineRow) (request : ReportTaskRequest)
    (now : Int) (db : Database) : Except PanelError (ReportTaskResponse × Database) := do
  let seq ← integerSequence request.sequence "task sequence" false
  let hash := sha256 (codec.reportTaskToBinary request)
  let task ← findTask db id row request.taskId
  failIf (task.payloadHash ≠ request.payloadSha256)
    (.connect "TASK_PAYLOAD_CONFLICT" .alreadyExists)
  failIf (isUninstalled db id row.bindingEpoch ∧ ¬ replaysUninstall task seq hash)
    (.connect "uninstalled machine may only replay its final uninstall result" .permissionDenied)
  if seq ≤ task.progressSequence then do
    failIf (seq = task.progressSequence ∧ some hash ≠ task.reportHash)
      (.connect "TASK_REPORT_CONFLICT" .alreadyExists)
    return (⟨task.progressSequence, decide (task.state = .succeeded ∨ task.state = .failed)⟩, db)
  else storeReport codec id row request task now db

end Bifurcation.Panel
