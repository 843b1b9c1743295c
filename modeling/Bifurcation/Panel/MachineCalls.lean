import Bifurcation.Panel.Machines

/-!
# Calls on machines and what they do

One request of a daemon or an administrator is a `Call`; `perform` is the handler that serves
it. `Effect` lists everything a call that succeeds can do to the database, with the guards that
held, and `perform_effect` is the only place where the handlers are taken apart: every invariant
of machines and tasks is proved by cases on `Effect`.
-/

namespace Bifurcation.Panel

inductive Call where
  | create (id token : String)
  | update (id : String) (expectedVersion : Int)
  | watchTasks (header : Option String) (installation : Option Installation) (info : DaemonInfo)
  | acceptTask (header : Option String) (installation : Option Installation) (sessionEpoch : Int)
      (taskId payloadSha256 : String)
  | reportStatus (header : Option String) (installation : Option Installation)
      (sessionEpoch sequence : Int) (status : MachineStatus)
  | reportTask (header : Option String) (request : ReportTaskRequest)
  | resetToken (id token : String)
  | rebind (id : String) (expectedVersion : Int) (token : String)
  | remove (id : String)
  | enqueueTask (id : String) (spec : TaskSpec) (requestKey taskId : String)

/-- What a call that succeeded was. -/
inductive Entry where
  | bound (id : String) (bindingEpoch : Int) (installationId : String)
  /-- A task that was accepted, now or before. -/
  | accepted (id : String) (bindingEpoch : Int) (installationId taskId : String)
  /-- A task report that was stored, now or before. -/
  | reported (id : String) (bindingEpoch : Int) (installationId taskId : String)
  /-- A status at or below the stored sequence. -/
  | checked (id : String) (bindingEpoch : Int) (installationId : String)
  /-- A status that was written. -/
  | status (id : String) (bindingEpoch : Int) (installationId : String)
      (sessionEpoch sequence : Int) (status : MachineStatus)
  | rebound (id : String)
  | tokenReset (id : String)
  | removed (id : String)
  | administered

/-! ## Handlers -/

/-- The `acceptTask` handler. -/
def acceptTask (header : Option String) (installation : Option Installation)
    (sessionEpoch : Int) (taskId hash : String) (now : Int) (db : Database) :
    Except PanelError (Entry × TaskRow × Database) := do
  let machine ← authenticateActive db header
  let identity ← assertInstallation machine.2 installation false
  let (task, db) ← accept machine.1 machine.2 sessionEpoch taskId hash now db
  return (.accepted machine.1 machine.2.bindingEpoch identity.installationId taskId, task, db)

/-- The `watchTasks` handler up to the session event. -/
def openSession (header : Option String) (installation : Option Installation) (info : DaemonInfo)
    (now : Int) (db : Database) : Except PanelError (Entry × Database) := do
  let machine ← authenticateActive db header
  let (updated, db) ← bind machine.1 installation info now db
  return (.bound machine.1 updated.bindingEpoch (updated.installationId.getD ""), db)

/-- The entry of a status report: written, or at or below the stored sequence. -/
def statusEntry (id : String) (row : MachineRow) (installationId : String) (sequence : Int)
    (status : MachineStatus) : Entry :=
  if sequence ≤ row.statusSequence then .checked id row.bindingEpoch installationId
  else .status id row.bindingEpoch installationId row.sessionEpoch sequence status

/-- The `reportStatus` handler. -/
def submitStatus (header : Option String) (installation : Option Installation)
    (sessionEpoch sequence : Int) (status : MachineStatus) (now : Int) (db : Database) :
    Except PanelError (Entry × Database) := do
  let machine ← authenticateActive db header
  let identity ← assertInstallation machine.2 installation false
  let (_, db) ← reportStatus machine.1 machine.2 sessionEpoch sequence status now db
  return (statusEntry machine.1 machine.2 identity.installationId sequence status, db)

/-- The `reportTask` handler: the only one a machine may call after its uninstall. -/
def submitReport (codec : Codec) (header : Option String) (request : ReportTaskRequest)
    (now : Int) (db : Database) : Except PanelError (Entry × ReportTaskResponse × Database) := do
  let machine ← authenticate db header
  let identity ← assertInstallation machine.2 request.installation false
  let (response, db) ← reportTask codec machine.1 machine.2 request now db
  return (.reported machine.1 machine.2.bindingEpoch identity.installationId request.taskId,
    response, db)

/-- Serve a call. -/
def perform (codec : Codec) (now : Int) (db : Database) :
    Call → Except PanelError (Entry × Database)
  | .create id token => do
    let db ← create id token now db
    return (.administered, db)
  | .update id expectedVersion => do
    let db ← update id expectedVersion db
    return (.administered, db)
  | .watchTasks header installation info => openSession header installation info now db
  | .acceptTask header installation sessionEpoch taskId hash => do
    let (entry, _, db) ← acceptTask header installation sessionEpoch taskId hash now db
    return (entry, db)
  | .reportStatus header installation sessionEpoch sequence status =>
    submitStatus header installation sessionEpoch sequence status now db
  | .reportTask header request => do
    let (entry, _, db) ← submitReport codec header request now db
    return (entry, db)
  | .resetToken id token => do
    let db ← resetToken id token db
    return (.tokenReset id, db)
  | .rebind id expectedVersion token => do
    let db ← rebind id expectedVersion token now db
    return (.rebound id, db)
  | .remove id => do
    let db ← remove id now db
    return (.removed id, db)
  | .enqueueTask id spec requestKey taskId => do
    let (_, db) ← enqueueTask codec id spec requestKey taskId now db
    return (.administered, db)

/-! ## Effects -/

/-- The database after a stored report. -/
def storedReport (codec : Codec) (id : String) (request : ReportTaskRequest) (task : TaskRow)
    (state : TaskState) (diagnostic : Option String) (now : Int) (db : Database) : Database :=
  let hash := sha256 (codec.reportTaskToBinary request)
  let db := db.setTask request.taskId (reportedTask task request state hash diagnostic now)
  if state = .succeeded ∧ task.kind = .uninstall then cancelQueued id now db else db

/-- The database after a new task. -/
def enqueued (id : String) (row : MachineRow) (kind : TaskKind) (taskId : String) (task : TaskRow)
    (now : Int) (db : Database) : Database :=
  { db with tasks := (if kind = .applyConfig then supersede id row.bindingEpoch now db.tasks
                      else db.tasks).set taskId task }

/-- The machine `id` is registered, with this row. -/
def Registered (db : Database) (id : String) (row : MachineRow) : Prop :=
  db.machines.get? id = some row ∧ row.removedAt = none

/-- The row of an enrolled machine and the installation a request was checked against. -/
def Enrolled (db : Database) (id : String) (row : MachineRow) (installationId : String) : Prop :=
  Registered db id row ∧ row.installationId = some installationId ∧ 1 ≤ row.bindingEpoch

/-- A task of the current epoch of a machine. -/
def CurrentTask (db : Database) (id : String) (row : MachineRow) (taskId : String)
    (task : TaskRow) : Prop :=
  db.tasks.get? taskId = some task ∧ task.machineId = id ∧ task.bindingEpoch = row.bindingEpoch

/-- Everything a call that succeeds can do. -/
inductive Effect (codec : Codec) (now : Int) : Entry → Database → Database → Prop where
  | created {db : Database} {id token : String} (h : db.machines.get? id = none) :
      Effect codec now .administered db
        (db.setMachine id { tokenHash := tokenHash token, createdAt := now })
  | updated {db : Database} {id : String} {row : MachineRow} (h : Registered db id row) :
      Effect codec now .administered db (db.setMachine id { row with version := row.version + 1 })
  | bound {db : Database} {id : String} {row : MachineRow} {identity : Installation}
      {info : DaemonInfo} (h : Registered db id row)
      (hsame : ∀ installed, row.installationId = some installed →
        installed = identity.installationId)
      (halive : isUninstalled db id row.bindingEpoch = false) :
      Effect codec now
        (.bound id (boundRow row identity info now).bindingEpoch identity.installationId) db
        (db.setMachine id (boundRow row identity info now))
  | rebound {db : Database} {id token : String} {row : MachineRow} (h : Registered db id row)
      (hidle : db.tasks.rows.any (activeOf id ·.2) = false) :
      Effect codec now (.rebound id) db
        (cancelQueued id now (db.setMachine id (reboundRow row token)))
  | tokenReset {db : Database} {id token : String} {row : MachineRow} (h : Registered db id row) :
      Effect codec now (.tokenReset id) db (db.setMachine id (resetRow row token))
  | removed {db : Database} {id : String} {row : MachineRow} (h : Registered db id row) :
      Effect codec now (.removed id) db (cancelQueued id now (db.setMachine id
        { row with removedAt := some now, sessionEpoch := row.sessionEpoch + 1 }))
  | checked {db : Database} {id installationId : String} {row : MachineRow}
      (h : Enrolled db id row installationId) :
      Effect codec now (.checked id row.bindingEpoch installationId) db db
  | reaccepted {db : Database} {id installationId taskId : String} {row : MachineRow}
      (h : Enrolled db id row installationId) :
      Effect codec now (.accepted id row.bindingEpoch installationId taskId) db db
  | accepted {db : Database} {id installationId taskId : String} {row : MachineRow}
      {task : TaskRow} (h : Enrolled db id row installationId)
      (htask : CurrentTask db id row taskId task) (hqueued : task.state = .queued)
      (hidle : (db.tasks.rows.any fun x => activeOf id x.2 && x.1 ≠ taskId) = false) :
      Effect codec now (.accepted id row.bindingEpoch installationId taskId) db
        (db.setTask taskId { task with state := .accepted, updatedAt := now })
  | status {db : Database} {id installationId : String} {row : MachineRow} {sequence : Int}
      {status : MachineStatus} (h : Enrolled db id row installationId)
      (hseq : row.statusSequence < sequence) : Effect codec now
        (.status id row.bindingEpoch installationId row.sessionEpoch sequence status) db
        (db.setMachine id
          { row with statusSequence := sequence, status := some status
                     daemonVersion := some status.daemonVersion, lastSeenAt := some now })
  | rereported {db : Database} {id installationId taskId : String} {row : MachineRow}
      (h : Enrolled db id row installationId) :
      Effect codec now (.reported id row.bindingEpoch installationId taskId) db db
  | reported {db : Database} {id installationId : String} {row : MachineRow}
      {request : ReportTaskRequest} {task : TaskRow} {state : TaskState}
      {diagnostic : Option String} (h : Enrolled db id row installationId)
      (htask : CurrentTask db id row request.taskId task)
      (hactive : task.state = .accepted ∨ task.state = .running)
      (hstate : reportedState request.state = some state)
      (hseq : task.progressSequence < request.sequence)
      (halive : isUninstalled db id row.bindingEpoch = false) :
      Effect codec now (.reported id row.bindingEpoch installationId request.taskId) db
        (storedReport codec id request task state diagnostic now db)
  | enqueued {db : Database} {id taskId : String} {row : MachineRow} {kind : TaskKind}
      {payload : Bytes} {requestKey installationId : String} (h : Registered db id row)
      (hinstalled : row.installationId = some installationId)
      (halive : isUninstalled db id row.bindingEpoch = false)
      (hnew : db.tasks.get? taskId = none) :
      Effect codec now .administered db (enqueued id row kind taskId
        (newTask id row.bindingEpoch kind payload requestKey now) now db)
  | kept {db : Database} : Effect codec now .administered db db

/-! ## What the guards say -/

variable {codec : Codec} {db db' : Database} {now : Int}

theorem get_eq_ok {id : String} {row : MachineRow} :
    get db id = .ok row ↔ Registered db id row := by
  simp [get, Registered, Option.filter_eq_some_iff]

theorem authenticate_eq_ok {header : Option String} {machine : String × MachineRow}
    (h : authenticate db header = .ok machine) : Registered db machine.1 machine.2 := by
  simp only [authenticate, bind_eq_ok, found_eq_ok] at h
  obtain ⟨token, -, h⟩ := h
  have hmem := List.mem_of_find?_eq_some h
  have hprop := List.find?_some h
  simp only [Bool.and_eq_true, Option.isNone_iff_eq_none] at hprop
  exact ⟨Table.get?_of_mem hmem, hprop.2⟩

theorem authenticateActive_eq_ok {header : Option String} {machine : String × MachineRow} :
    authenticateActive db header = .ok machine ↔ authenticate db header = .ok machine ∧
      isUninstalled db machine.1 machine.2.bindingEpoch = false := by
  simp only [authenticateActive, bind_eq_ok, failIf_eq_ok, pure_eq_ok]
  constructor
  · rintro ⟨m, hm, -, halive, rfl⟩
    exact ⟨hm, by simpa using halive⟩
  · rintro ⟨hm, halive⟩
    exact ⟨machine, hm, (), by simpa using halive, rfl⟩

theorem integerSequence_eq_ok {value n : Int} {name : String} {allowZero : Bool} :
    integerSequence value name allowZero = .ok n ↔
      n = value ∧ (if allowZero then 0 else 1) ≤ value ∧ value ≤ maxSafeInteger := by
  simp only [integerSequence, bind_eq_ok, failIf_eq_ok, pure_eq_ok, exists_const]
  constructor
  · rintro ⟨h, rfl⟩
    refine ⟨rfl, ?_, ?_⟩ <;> omega
  · rintro ⟨rfl, h₁, h₂⟩
    exact ⟨by omega, rfl⟩

/-- A request that is not a first binding is checked against the enrolled installation. -/
theorem assertInstallation_eq_ok {row : MachineRow} {installation : Option Installation}
    {identity : Installation} (h : assertInstallation row installation false = .ok identity) :
    row.installationId = some identity.installationId ∧ 1 ≤ row.bindingEpoch := by
  simp only [assertInstallation, bind_eq_ok, found_eq_ok, integerSequence_eq_ok] at h
  obtain ⟨i, -, epoch, ⟨rfl, hpos, -⟩, h⟩ := h
  cases hrow : row.installationId with
  | none => simp [hrow] at h
  | some installed =>
    simp only [hrow, bind_eq_ok, failIf_eq_ok, pure_eq_ok, exists_const] at h
    obtain ⟨hsame, hepoch, rfl⟩ := h
    simp only [Bool.false_eq_true, false_and, not_false_eq_true, and_true, not_not] at hepoch hpos
    exact ⟨by rw [not_not.1 hsame], by simpa [hepoch] using hpos⟩

/-- A binding keeps the installation that is enrolled. -/
theorem assertInstallation_initial {row : MachineRow} {installation : Option Installation}
    {identity : Installation} (h : assertInstallation row installation true = .ok identity) :
    ∀ installed, row.installationId = some installed → installed = identity.installationId := by
  intro installed hrow
  simp only [assertInstallation, bind_eq_ok, found_eq_ok] at h
  obtain ⟨i, -, epoch, -, h⟩ := h
  simp only [hrow, bind_eq_ok, failIf_eq_ok, pure_eq_ok, exists_const] at h
  obtain ⟨hsame, -, rfl⟩ := h
  exact not_not.1 hsame

theorem findTask_eq_ok {id taskId : String} {row : MachineRow} {task : TaskRow} :
    findTask db id row taskId = .ok task ↔ CurrentTask db id row taskId task := by
  simp [findTask, CurrentTask, Option.filter_eq_some_iff]

/-! ## What each call does -/

theorem accept_effect (codec : Codec) {id taskId hash installationId : String} {row : MachineRow}
    {sessionEpoch : Int} {task : TaskRow} (hrow : Enrolled db id row installationId)
    (h : accept id row sessionEpoch taskId hash now db = .ok (task, db')) :
    sessionEpoch = row.sessionEpoch ∧
      Effect codec now (.accepted id row.bindingEpoch installationId taskId) db db' := by
  simp only [accept, bind_eq_ok, failIf_eq_ok, integerSequence_eq_ok, findTask_eq_ok,
    exists_const] at h
  obtain ⟨epoch, ⟨rfl, -⟩, hepoch, found, htask, -, -, -, h⟩ := h
  refine ⟨not_not.1 hepoch, ?_⟩
  by_cases hq : found.state = .queued
  · simp only [hq, ne_eq, not_true_eq_false, if_false, bind_eq_ok, failIf_eq_ok, pure_eq_ok,
      exists_const, Prod.mk.injEq] at h
    obtain ⟨hidle, -, rfl⟩ := h
    exact .accepted hrow htask hq (by simpa using hidle)
  · simp only [ne_eq, hq, not_false_eq_true, if_true, pure_eq_ok, Prod.mk.injEq] at h
    obtain ⟨-, rfl⟩ := h
    exact .reaccepted hrow

theorem reportStatus_effect (codec : Codec) {id installationId : String} {row : MachineRow}
    {sessionEpoch sequence committed : Int} {status : MachineStatus}
    (hrow : Enrolled db id row installationId)
    (h : reportStatus id row sessionEpoch sequence status now db = .ok (committed, db')) :
    sessionEpoch = row.sessionEpoch ∧
      Effect codec now (statusEntry id row installationId sequence status) db db' := by
  simp only [reportStatus, bind_eq_ok, failIf_eq_ok, integerSequence_eq_ok, exists_const] at h
  obtain ⟨epoch, ⟨rfl, -⟩, hepoch, seq, ⟨rfl, -⟩, h⟩ := h
  refine ⟨not_not.1 hepoch, ?_⟩
  by_cases hseq : seq ≤ row.statusSequence
  · simp only [hseq, if_true, pure_eq_ok, Prod.mk.injEq] at h
    obtain ⟨-, rfl⟩ := h
    simp only [statusEntry, hseq, if_true]
    exact .checked hrow
  · simp only [hseq, if_false, pure_eq_ok, Prod.mk.injEq] at h
    obtain ⟨-, rfl⟩ := h
    simp only [statusEntry, hseq, if_false]
    exact .status hrow (by omega)

/-- What a stored report needs and does. -/
theorem storeReport_eq_ok {id : String} {row : MachineRow} {request : ReportTaskRequest}
    {task : TaskRow} {response : ReportTaskResponse}
    (h : storeReport codec id row request task now db = .ok (response, db')) :
    (task.state = .accepted ∨ task.state = .running) ∧
      ∃ state diagnostic, reportedState request.state = some state ∧
        diagnosticOf codec request.diagnosticJson = .ok diagnostic ∧
        response = ⟨request.sequence, decide (state ≠ .running)⟩ ∧
        db' = storedReport codec id request task state diagnostic now db := by
  simp only [storeReport, bind_eq_ok, failIf_eq_ok, found_eq_ok, pure_eq_ok, exists_const,
    Prod.mk.injEq] at h
  obtain ⟨hactive, -, -, state, hstate, diagnostic, hdiagnostic, rfl, rfl⟩ := h
  exact ⟨not_not.1 hactive, state, diagnostic, hstate, hdiagnostic, rfl, rfl⟩

/-- A report that succeeds was stored before, or is stored now. -/
theorem reportTask_eq_ok {id : String} {row : MachineRow} {request : ReportTaskRequest}
    {response : ReportTaskResponse}
    (h : reportTask codec id row request now db = .ok (response, db')) :
    ∃ task, CurrentTask db id row request.taskId task ∧
      ((request.sequence ≤ task.progressSequence ∧ db' = db ∧
          response = ⟨task.progressSequence, decide (task.state = .succeeded ∨ task.state = .failed)⟩ ∧
          (request.sequence = task.progressSequence →
            task.reportHash = some (sha256 (codec.reportTaskToBinary request)))) ∨
        (task.progressSequence < request.sequence ∧
          isUninstalled db id row.bindingEpoch = false ∧
          storeReport codec id row request task now db = .ok (response, db'))) := by
  simp only [reportTask, bind_eq_ok, failIf_eq_ok, integerSequence_eq_ok, findTask_eq_ok,
    exists_const] at h
  obtain ⟨seq, ⟨rfl, -⟩, task, htask, -, halive, h⟩ := h
  refine ⟨task, htask, ?_⟩
  by_cases hseq : request.sequence ≤ task.progressSequence
  · simp only [hseq, if_true, bind_eq_ok, failIf_eq_ok, pure_eq_ok, exists_const,
      Prod.mk.injEq] at h
    obtain ⟨hhash, rfl, rfl⟩ := h
    refine .inl ⟨hseq, rfl, rfl, fun heq => ?_⟩
    exact (not_not.1 fun hne => hhash ⟨heq, fun h => hne h.symm⟩)
  · simp only [hseq, if_false] at h
    refine .inr ⟨by omega, ?_, h⟩
    -- A replay has the stored sequence, so it is not stored again.
    by_contra hun
    refine halive ⟨by simpa using hun, fun hreplay => ?_⟩
    exact hseq (le_of_eq hreplay.2.2.1)

theorem reportTask_effect {id installationId : String} {row : MachineRow}
    {request : ReportTaskRequest} {response : ReportTaskResponse}
    (hrow : Enrolled db id row installationId)
    (h : reportTask codec id row request now db = .ok (response, db')) :
    Effect codec now (.reported id row.bindingEpoch installationId request.taskId) db db' := by
  obtain ⟨task, htask, ⟨-, rfl, -, -⟩ | ⟨hseq, halive, hstore⟩⟩ := reportTask_eq_ok h
  · exact .rereported hrow
  · obtain ⟨hactive, state, diagnostic, hstate, -, -, rfl⟩ := storeReport_eq_ok hstore
    exact .reported hrow htask hactive hstate hseq halive

theorem enqueueable_eq_ok {id : String} {row : MachineRow} {kind : TaskKind} {u : Unit}
    (h : enqueueable db id row kind = .ok u) :
    isUninstalled db id row.bindingEpoch = false ∧ row.installationId ≠ none ∧
      row.supportedTasks.contains kind.number = true := by
  simp only [enqueueable, bind_eq_ok, failIf_eq_ok, exists_const] at h
  obtain ⟨halive, hinstalled, u, -, hsupported⟩ := h
  exact ⟨by simpa using halive, hinstalled, by simpa using hsupported⟩

/-- A task that is enqueued existed under its request key, or is a new row. -/
theorem enqueueTask_eq_ok {id requestKey taskId task : String} {spec : TaskSpec}
    (h : enqueueTask codec id spec requestKey taskId now db = .ok (task, db')) :
    ∃ row kind, Registered db id row ∧ spec.kind = some kind ∧
      ((∃ x ∈ db.tasks.rows, x.1 = task ∧ x.2.machineId = id ∧ x.2.requestKey = requestKey ∧
          x.2.payloadHash = sha256 (codec.taskSpecToBinary spec) ∧ db' = db) ∨
        (task = taskId ∧ db.tasks.get? taskId = none ∧
          (∀ x ∈ db.tasks.rows, ¬ (x.2.machineId = id ∧ x.2.requestKey = requestKey)) ∧
          enqueueable db id row kind = .ok () ∧
          db' = enqueued id row kind taskId (newTask id row.bindingEpoch kind
            (codec.taskSpecToBinary spec) requestKey now) now db)) := by
  simp only [enqueueTask, bind_eq_ok, failIf_eq_ok, found_eq_ok, get_eq_ok, exists_const] at h
  obtain ⟨row, hrow, kind, hkind, -, h⟩ := h
  refine ⟨row, kind, hrow, hkind, ?_⟩
  cases hfind : db.tasks.rows.find? fun x => x.2.machineId = id && x.2.requestKey = requestKey with
  | some x =>
    simp only [hfind, bind_eq_ok, failIf_eq_ok, pure_eq_ok, exists_const, Prod.mk.injEq] at h
    obtain ⟨hhash, rfl, rfl⟩ := h
    have hprop := List.find?_some hfind
    simp only [Bool.and_eq_true, decide_eq_true_eq] at hprop
    exact .inl ⟨x, List.mem_of_find?_eq_some hfind, rfl, hprop.1, hprop.2, not_not.1 hhash, rfl⟩
  | none =>
    simp only [hfind, bind_eq_ok, found_eq_ok, pure_eq_ok, Prod.mk.injEq,
      Table.insert?_eq_some] at h
    obtain ⟨u, hable, tasks, ⟨hnone, rfl⟩, rfl, rfl⟩ := h
    refine .inr ⟨rfl, ?_, ?_, hable, rfl⟩
    · by_cases hk : kind = .applyConfig
      · simpa [hk, supersede, Table.get?_updateWhere] using hnone
      · simpa [hk] using hnone
    · intro x hx hboth
      have := List.find?_eq_none.1 hfind x hx
      simp [hboth.1, hboth.2] at this

theorem enqueueTask_effect {id requestKey taskId task : String} {spec : TaskSpec}
    (h : enqueueTask codec id spec requestKey taskId now db = .ok (task, db')) :
    Effect codec now .administered db db' := by
  obtain ⟨row, kind, hrow, -, ⟨x, -, -, -, -, -, rfl⟩ | ⟨-, hnew, -, hable, rfl⟩⟩ :=
    enqueueTask_eq_ok h
  · exact .kept
  · obtain ⟨halive, hinstalled, -⟩ := enqueueable_eq_ok hable
    obtain ⟨installed, hinstalled⟩ := Option.ne_none_iff_exists'.1 hinstalled
    exact .enqueued hrow hinstalled halive hnew

theorem openSession_effect {header : Option String} {installation : Option Installation}
    {info : DaemonInfo} {entry : Entry}
    (h : openSession header installation info now db = .ok (entry, db')) :
    Effect codec now entry db db' := by
  simp only [openSession, bind_eq_ok, authenticateActive_eq_ok, pure_eq_ok, Prod.mk.injEq,
    Prod.exists, bind, found_eq_ok, failIf_eq_ok, exists_const, Option.filter_eq_some_iff,
    Option.isNone_iff_eq_none] at h
  obtain ⟨id, row, -, updated, db₁, ⟨current, ⟨hget, hactive⟩, identity, hidentity, halive, rfl,
    rfl⟩, rfl, rfl⟩ := h
  exact .bound ⟨hget, hactive⟩ (assertInstallation_initial hidentity) (by simpa using halive)

/-- Everything a call that succeeds can do is an `Effect`. -/
theorem perform_effect {call : Call} {entry : Entry}
    (h : perform codec now db call = .ok (entry, db')) : Effect codec now entry db db' := by
  cases call with
  | create id token =>
    simp only [perform, create, bind_eq_ok, failIf_eq_ok, found_eq_ok, pure_eq_ok, exists_const,
      Prod.mk.injEq, Table.insert?_eq_some] at h
    obtain ⟨db₁, ⟨-, machines, ⟨hnone, rfl⟩, rfl⟩, rfl, rfl⟩ := h
    exact .created hnone
  | update id expectedVersion =>
    simp only [perform, update, bind_eq_ok, failIf_eq_ok, get_eq_ok, pure_eq_ok, exists_const,
      Prod.mk.injEq] at h
    obtain ⟨db₁, ⟨row, hrow, -, rfl⟩, rfl, rfl⟩ := h
    exact .updated hrow
  | watchTasks header installation info => exact openSession_effect h
  | acceptTask header installation sessionEpoch taskId hash =>
    simp only [perform, acceptTask, bind_eq_ok, pure_eq_ok, Prod.exists, Prod.mk.injEq] at h
    obtain ⟨e, task, db₁, ⟨id, row, hauth, identity, hidentity, t, db₂, haccept, rfl, rfl, rfl⟩,
      rfl, rfl⟩ := h
    have hrow := authenticate_eq_ok (authenticateActive_eq_ok.1 hauth).1
    exact (accept_effect codec ⟨hrow, assertInstallation_eq_ok hidentity⟩ haccept).2
  | reportStatus header installation sessionEpoch sequence status =>
    simp only [perform, submitStatus, bind_eq_ok, pure_eq_ok, Prod.exists, Prod.mk.injEq] at h
    obtain ⟨id, row, hauth, identity, hidentity, committed, db₂, hreport, rfl, rfl⟩ := h
    have hrow := authenticate_eq_ok (authenticateActive_eq_ok.1 hauth).1
    exact (reportStatus_effect codec ⟨hrow, assertInstallation_eq_ok hidentity⟩ hreport).2
  | reportTask header request =>
    simp only [perform, submitReport, bind_eq_ok, pure_eq_ok, Prod.exists, Prod.mk.injEq] at h
    obtain ⟨e, response, db₁, ⟨id, row, hauth, identity, hidentity, r, db₂, hreport, rfl, rfl,
      rfl⟩, rfl, rfl⟩ := h
    have hrow := authenticate_eq_ok hauth
    exact reportTask_effect ⟨hrow, assertInstallation_eq_ok hidentity⟩ hreport
  | resetToken id token =>
    simp only [perform, resetToken, bind_eq_ok, failIf_eq_ok, get_eq_ok, pure_eq_ok, exists_const,
      Prod.mk.injEq] at h
    obtain ⟨db₁, ⟨row, hrow, -, rfl⟩, rfl, rfl⟩ := h
    exact .tokenReset hrow
  | rebind id expectedVersion token =>
    simp only [perform, rebind, bind_eq_ok, failIf_eq_ok, get_eq_ok, pure_eq_ok, exists_const,
      Prod.mk.injEq] at h
    obtain ⟨db₁, ⟨row, hrow, -, hidle, -, rfl⟩, rfl, rfl⟩ := h
    exact .rebound hrow (by simpa using hidle)
  | remove id =>
    simp only [perform, remove, bind_eq_ok, get_eq_ok, pure_eq_ok, Prod.mk.injEq] at h
    obtain ⟨db₁, ⟨row, hrow, rfl⟩, rfl, rfl⟩ := h
    exact .removed hrow
  | enqueueTask id spec requestKey taskId =>
    simp only [perform, bind_eq_ok, pure_eq_ok, Prod.exists, Prod.mk.injEq] at h
    obtain ⟨task, db₁, henqueue, rfl, rfl⟩ := h
    exact enqueueTask_effect henqueue

end Bifurcation.Panel
