import Bifurcation.Lib.Growth
import Bifurcation.Panel.Configuration
import Bifurcation.Panel.PolicyRuns

/-!
# What the configuration calls do

The only place where the calls of the configuration store are taken apart. A publication is one
update of the database (`publication`) followed by its task, whether an administrator or the
reconciliation makes it; a refresh inside a call is the refresh of the state the call found.
-/

namespace Bifurcation.Panel

open Javascript

/-! ## Refreshes do not mind configurations -/

/-- The database with other configuration rows. -/
def Database.withConfigs (db : Database) (machineConfigs : Table String ConfigRow) : Database :=
  { db with machineConfigs }

/-- What a refresh leaves, with other configuration rows. -/
def Refreshing.withConfigs (state : Refreshing) (machineConfigs : Table String ConfigRow) :
    Refreshing :=
  { state with db := state.db.withConfigs machineConfigs }

section Refresh

variable {vault : Vault} {fresh : String → String} {now : Int}

theorem initializeUserSecrets_withConfigs (userId : String) (db : Database)
    (configs : Table String ConfigRow) :
    initializeUserSecrets fresh userId (db.withConfigs configs) =
      (initializeUserSecrets fresh userId db).withConfigs configs := by
  unfold initializeUserSecrets Database.withConfigs
  cases hrow : db.proxyCredentials.get? userId with
  | none => simp
  | some row => simp

theorem refreshUser_withConfigs (state : Refreshing) (userId : String)
    (configs : Table String ConfigRow) :
    refreshUser vault fresh now (state.withConfigs configs) userId =
      (refreshUser vault fresh now state userId).map (·.withConfigs configs) := by
  have hread (db : Database) : readProxyCredentials vault userId (db.withConfigs configs) =
      readProxyCredentials vault userId db := rfl
  have hquota (db : Database) : userQuota userId now (db.withConfigs configs) =
      userQuota userId now db := rfl
  simp only [refreshUser, Refreshing.withConfigs, initializeUserSecrets_withConfigs, hread, hquota]
  cases readProxyCredentials vault userId (initializeUserSecrets fresh userId state.db) with
  | error e => rfl
  | ok credentials =>
    cases userQuota userId now (initializeUserSecrets fresh userId state.db) with
    | error e => rfl
    | ok quota =>
      simp only [ok_bind]
      split <;> rfl

/-- **A refresh does not mind the configurations.** -/
theorem refresh_withConfigs (db : Database) (configs : Table String ConfigRow) :
    refresh vault fresh now (db.withConfigs configs) =
      (refresh vault fresh now db).map fun r => (r.1, r.2.withConfigs configs) := by
  have hloop : ∀ (ids : List String) (state : Refreshing),
      ids.foldlM (refreshUser vault fresh now) (state.withConfigs configs) =
        (ids.foldlM (refreshUser vault fresh now) state).map (·.withConfigs configs) := by
    intro ids
    induction ids with
    | nil => exact fun _ => rfl
    | cons userId ids ih =>
      intro state
      rw [List.foldlM_cons, List.foldlM_cons, refreshUser_withConfigs]
      cases refreshUser vault fresh now state userId with
      | error e => rfl
      | ok state' => exact ih state'
  have hactive : activeUsers (db.withConfigs configs) = activeUsers db := rfl
  have hstart : (⟨db.withConfigs configs, [], []⟩ : Refreshing) =
      Refreshing.withConfigs ⟨db, [], []⟩ configs := rfl
  simp only [refresh, hactive, hstart, hloop]
  cases (activeUsers db).foldlM (refreshUser vault fresh now) ⟨db, [], []⟩ with
  | error e => rfl
  | ok state =>
    have hpolicy : (state.withConfigs configs).db.policyState = state.db.policyState := rfl
    have hprints : (state.withConfigs configs).fingerprintUsers = state.fingerprintUsers := rfl
    simp only [Except.map, ok_bind, hpolicy, hprints, failIf]
    split <;> rfl

theorem refresh_withConfigs_eq_ok {db db' : Database} {configs : Table String ConfigRow}
    {authorization : AuthorizationLayer}
    (h : refresh vault fresh now (db.withConfigs configs) = .ok (authorization, db')) :
    ∃ db₁, refresh vault fresh now db = .ok (authorization, db₁) ∧
      db' = db₁.withConfigs configs := by
  rw [refresh_withConfigs] at h
  cases hrefresh : refresh vault fresh now db with
  | error e =>
    rw [hrefresh] at h
    cases h
  | ok r =>
    rw [hrefresh] at h
    obtain ⟨rfl, rfl⟩ := Prod.mk.inj (Except.ok.inj h)
    exact ⟨r.2, rfl, rfl⟩

end Refresh

/-! ## The configuration row -/

/-- The row of a machine, or the one `ensureMachine` creates. -/
def configRow (machineId : String) (db : Database) : ConfigRow :=
  (db.machineConfigs.get? machineId).getD {}

/-- The configuration rows with one for the machine. -/
def ensured (machineId : String) (db : Database) : Table String ConfigRow :=
  if (db.machineConfigs.get? machineId).isSome then db.machineConfigs
  else db.machineConfigs.set machineId {}

theorem get?_ensured (machineId : String) (db : Database) (id : String) :
    (ensured machineId db).get? id =
      if machineId = id then some (configRow machineId db) else db.machineConfigs.get? id := by
  unfold ensured configRow
  cases hrow : db.machineConfigs.get? machineId with
  | some row =>
    rw [Option.isSome_some, if_pos rfl]
    split_ifs with heq
    · rw [← heq, hrow, Option.getD_some]
    · rfl
  | none =>
    rw [Option.isSome_none, if_neg (by decide), Table.get?_set, Option.getD_none]
    simp only [eq_comm]

theorem ensureMachine_eq_ok {machineId : String} {db db' : Database} {row : ConfigRow}
    (h : ensureMachine machineId db = .ok (row, db')) :
    ∃ machine, Registered db machineId machine ∧
      isUninstalled db machineId machine.bindingEpoch = false ∧ row = configRow machineId db ∧
      db' = db.withConfigs (ensured machineId db) := by
  simp only [ensureMachine, bind_eq_ok, get_eq_ok, failIf_eq_ok, exists_const,
    Bool.not_eq_true] at h
  obtain ⟨machine, hmachine, halive, h⟩ := h
  refine ⟨machine, hmachine, halive, ?_⟩
  unfold configRow ensured Database.withConfigs
  cases hrow : db.machineConfigs.get? machineId with
  | some current =>
    simp only [hrow, pure_eq_ok, Prod.mk.injEq] at h
    obtain ⟨rfl, rfl⟩ := h
    exact ⟨rfl, rfl⟩
  | none =>
    simp only [hrow, pure_eq_ok, Prod.mk.injEq] at h
    obtain ⟨rfl, rfl⟩ := h
    exact ⟨rfl, rfl⟩

/-! ## Publications -/

/-- What a publication writes before its task: the revision, the row that points at it, and the
users. -/
def publication (machineId revisionId : String) (revision : RevisionRow) (row : ConfigRow)
    (authorization : AuthorizationLayer) (db : Database) : Database :=
  rememberUsers machineId authorization
    { db with
      configRevisions := db.configRevisions.set revisionId revision
      machineConfigs := db.machineConfigs.set machineId row }

theorem insertRevision_eq_ok {revisionId : String} {revision : RevisionRow} {db db' : Database}
    (h : insertRevision revisionId revision db = .ok db') :
    db.configRevisions.get? revisionId = none ∧
      db' = { db with configRevisions := db.configRevisions.set revisionId revision } := by
  simp only [insertRevision, bind_eq_ok, failIf_eq_ok, found_eq_ok, pure_eq_ok, exists_const,
    Table.insert?_eq_some] at h
  obtain ⟨-, revisions, ⟨hnone, rfl⟩, rfl⟩ := h
  exact ⟨hnone, rfl⟩

section Calls

variable {N : Type} {js : Runtime N} {codec : Codec} {vault : ConfigVault N} {draws : Draws N}
  {now : Int} {machineId : String} {db db' : Database}

/-- The row of a preview. -/
def previewRow (js : Runtime N) (draws : Draws N) (now : Int) (machineId : String) (version : Int)
    (settings : MachineConfigurationInput N) (createdBy : String)
    (authorization : AuthorizationLayer) : PreviewRow :=
  let value := renderServer js settings authorization
  { machineId, settingsCiphertext := draws.settings settings
    renderedCiphertext := draws.rendered (jsonText js value), digest := sha256 (jsonBytes js value)
    expectedVersion := version, policyRevision := policyNumber authorization
    expiresAt := now + 10 * 60000, createdBy }

/-- **A preview** stores what its refresh renders. -/
theorem preview_eq_ok {expectedVersion : Int} {settings : MachineConfigurationInput N}
    {createdBy : String} {result : ConfigurationPreview}
    (h : preview js vault draws now machineId expectedVersion settings createdBy db =
      .ok (result, db')) :
    ∃ authorization db₁, refresh vault.toVault draws.secrets now db = .ok (authorization, db₁) ∧
      (∃ machine, Registered db machineId machine) ∧ db₁.configPreviews.get? draws.id = none ∧
      db' = { db₁.withConfigs (ensured machineId db) with
              configPreviews := db₁.configPreviews.set draws.id (previewRow js draws now machineId
                expectedVersion settings createdBy authorization) } := by
  simp only [preview, bind_eq_ok, failIf_eq_ok, found_eq_ok, pure_eq_ok, exists_const,
    Prod.exists, Prod.mk.injEq, Table.insert?_eq_some, not_not] at h
  obtain ⟨row, db₀, hensure, rfl, authorization, db₂, hrefresh, previews, ⟨hnone, rfl⟩, -, rfl⟩ := h
  obtain ⟨machine, hmachine, -, -, rfl⟩ := ensureMachine_eq_ok hensure
  obtain ⟨db₁, hrefresh₁, rfl⟩ := refresh_withConfigs_eq_ok hrefresh
  exact ⟨authorization, db₁, hrefresh₁, ⟨machine, hmachine⟩, hnone, rfl⟩

/-- A preview that a call found. -/
structure Found (machineId previewId createdBy : String) (db : Database) (preview : PreviewRow) :
    Prop where
  row : db.configPreviews.get? previewId = some preview
  machine : preview.machineId = machineId
  creator : preview.createdBy = createdBy

/-- The revision a preview becomes. -/
def revisionOf (preview : PreviewRow) (machineId : String) (version now : Int)
    (createdBy : String) (authorization : AuthorizationLayer) : RevisionRow where
  machineId := machineId
  version := version
  settingsCiphertext := preview.settingsCiphertext
  renderedCiphertext := preview.renderedCiphertext
  digest := preview.digest
  policyRevision := preview.policyRevision
  authorizedUserIds := userIds authorization
  createdAt := now
  createdBy := some createdBy

/-- The database a first publication leaves before its task. -/
def publicationOf (preview : PreviewRow) (machineId previewId revisionId : String) (now : Int)
    (createdBy : String) (authorization : AuthorizationLayer) (row : ConfigRow) (db : Database) :
    Database :=
  publication machineId revisionId
    (revisionOf preview machineId (row.version + 1) now createdBy authorization)
    { settingsCiphertext := some preview.settingsCiphertext, version := row.version + 1
      desiredRevisionId := some revisionId, desiredPolicyRevision := preview.policyRevision }
    authorization
    { db with
      configPreviews := db.configPreviews.set previewId
        { preview with publishedRevisionId := some revisionId } }

/-- **A first publication**, under the policy of its preview. -/
structure Publishes (vault : ConfigVault N) (codec : Codec) (draws : Draws N) (now : Int)
    (machineId : String) (input : PublishInput) (createdBy : String) (preview : PreviewRow)
    (authorization : AuthorizationLayer) (db₁ db db' : Database) (taskId : String) : Prop where
  refreshed : refresh vault.toVault draws.secrets now db = .ok (authorization, db₁)
  policy : authorization.policyRevision = integerText preview.policyRevision
  fresh : db₁.configRevisions.get? draws.id = none
  version : preview.expectedVersion = (configRow machineId db).version
  enqueued : enqueueTask codec machineId (.applyConfig draws.id preview.policyRevision)
    input.requestKey.1 draws.taskId now
    (publicationOf preview machineId input.previewId draws.id now createdBy authorization
      (configRow machineId db) (db₁.withConfigs (ensured machineId db))) = .ok (taskId, db')

/-- A publication is the first of its preview, or answers with the first one. -/
theorem publish_eq_ok {input : PublishInput} {createdBy : String} {result : ConfigurationPublish}
    (h : publish codec vault draws now machineId input createdBy db = .ok (result, db')) :
    ∃ preview, Found machineId input.previewId createdBy db preview ∧
      ((∃ revisionId, preview.publishedRevisionId = some revisionId ∧ db' = db ∧
          published codec machineId revisionId input.requestKey.1 db = .ok result) ∨
        (preview.publishedRevisionId = none ∧ ∃ authorization db₁,
          Publishes vault codec draws now machineId input createdBy preview authorization db₁ db
            db' result.taskId ∧
          result = ⟨draws.id, (configRow machineId db).version + 1, result.taskId⟩)) := by
  simp only [publish, bind_eq_ok, get_eq_ok, found_eq_ok, Option.filter_eq_some_iff,
    Bool.and_eq_true, decide_eq_true_eq] at h
  obtain ⟨machine, hmachine, preview, ⟨hrow, hid, hcreator⟩, h⟩ := h
  refine ⟨preview, ⟨hrow, hid, hcreator⟩, ?_⟩
  cases hpublished : preview.publishedRevisionId with
  | some revisionId =>
    simp only [hpublished, bind_eq_ok, pure_eq_ok, Prod.mk.injEq] at h
    obtain ⟨answer, hanswer, rfl, rfl⟩ := h
    exact .inl ⟨revisionId, rfl, rfl, hanswer⟩
  | none =>
    simp only [hpublished, bind_eq_ok, failIf_eq_ok, pure_eq_ok, exists_const, Prod.exists,
      Prod.mk.injEq, not_or, not_not] at h
    obtain ⟨-, row, db₀, hensure, ⟨-, hversion⟩, authorization, db₂, hrefresh, hpolicy, -, db₃,
      hinsert, taskId, db₄, henqueue, rfl, rfl⟩ := h
    obtain ⟨machine', hmachine', -, rfl, rfl⟩ := ensureMachine_eq_ok hensure
    obtain ⟨db₁, hrefresh₁, rfl⟩ := refresh_withConfigs_eq_ok hrefresh
    obtain ⟨hfresh, rfl⟩ := insertRevision_eq_ok hinsert
    exact .inr ⟨rfl, authorization, db₁, ⟨hrefresh₁, hpolicy, hfresh, hversion, henqueue⟩, rfl⟩

/-- The revision the reconciliation makes. -/
def reconciledRevision (js : Runtime N) (draws : Draws N) (now : Int) (machineId : String)
    (version : Int) (settingsCiphertext : String) (settings : MachineConfigurationInput N)
    (authorization : AuthorizationLayer) : RevisionRow :=
  let value := renderServer js settings authorization
  { machineId, version, settingsCiphertext
    renderedCiphertext := draws.rendered (jsonText js value), digest := sha256 (jsonBytes js value)
    policyRevision := policyNumber authorization, authorizedUserIds := userIds authorization
    createdAt := now, createdBy := none }

/-- **A publication of the reconciliation**: the settings of the machine under a later policy. -/
structure Republishes (js : Runtime N) (vault : ConfigVault N) (codec : Codec) (draws : Draws N)
    (now : Int) (authorization : AuthorizationLayer) (machineId : String) (machine : MachineRow)
    (current : ConfigRow) (settingsCiphertext : String) (settings : MachineConfigurationInput N)
    (db db' : Database) (taskId : String) : Prop where
  row : db.machineConfigs.get? machineId = some current
  stored : current.settingsCiphertext = some settingsCiphertext
  later : current.desiredPolicyRevision < policyNumber authorization
  opened : vault.settingsOf settingsCiphertext = some settings
  fresh : db.configRevisions.get? draws.id = none
  enqueued : enqueueTask codec machineId (.applyConfig draws.id (policyNumber authorization))
    (policyKey machineId machine.bindingEpoch (textOf authorization.policyRevision)) draws.taskId
    now (publication machineId draws.id
      (reconciledRevision js draws now machineId (current.version + 1) settingsCiphertext settings
        authorization)
      { settingsCiphertext := some settingsCiphertext, version := current.version + 1
        desiredRevisionId := some draws.id, desiredPolicyRevision := policyNumber authorization }
      authorization db) = .ok (taskId, db')

/-- The transaction of a machine does nothing, or publishes. -/
theorem reconcileMachine_eq_ok {authorization : AuthorizationLayer} {machine : MachineRow}
    {done : Bool}
    (h : reconcileMachine js codec vault draws now authorization machineId machine db =
      .ok (done, db')) :
    (done = false ∧ db' = db) ∨ (done = true ∧ ∃ current settingsCiphertext settings taskId,
      Republishes js vault codec draws now authorization machineId machine current
        settingsCiphertext settings db db' taskId) := by
  simp only [reconcileMachine, bind_eq_ok, found_eq_ok] at h
  obtain ⟨current, hrow, h⟩ := h
  cases hstored : current.settingsCiphertext with
  | none =>
    simp only [hstored, pure_eq_ok, Prod.mk.injEq] at h
    exact .inl ⟨h.1.symm, h.2.symm⟩
  | some settingsCiphertext =>
    simp only [hstored] at h
    by_cases hlater : current.desiredPolicyRevision ≥ policyNumber authorization
    · rw [if_pos hlater, pure_eq_ok, Prod.mk.injEq] at h
      exact .inl ⟨h.1.symm, h.2.symm⟩
    · rw [if_neg hlater] at h
      simp only [bind_eq_ok, found_eq_ok, pure_eq_ok, Prod.exists, Prod.mk.injEq] at h
      obtain ⟨settings, hopened, db₁, hinsert, taskId, db₂, henqueue, rfl, rfl⟩ := h
      obtain ⟨hfresh, rfl⟩ := insertRevision_eq_ok hinsert
      exact .inr ⟨rfl, current, settingsCiphertext, settings, taskId, hrow, hstored,
        not_le.1 hlater, hopened, hfresh, henqueue⟩

end Calls

/-! ## Tasks of machines -/

/-- A task later in a run: what it asks for stays, and it is not queued again. -/
structure SameTask (task task' : TaskRow) : Prop where
  machineId : task'.machineId = task.machineId
  bindingEpoch : task'.bindingEpoch = task.bindingEpoch
  kind : task'.kind = task.kind
  payload : task'.payload = task.payload
  payloadHash : task'.payloadHash = task.payloadHash
  requestKey : task'.requestKey = task.requestKey
  queued : task'.state = .queued → task.state = .queued

theorem SameTask.refl (task : TaskRow) : SameTask task task :=
  ⟨rfl, rfl, rfl, rfl, rfl, rfl, id⟩

theorem SameTask.trans (a b c : TaskRow) (h : SameTask a b) (h' : SameTask b c) :
    SameTask a c where
  machineId := h'.machineId.trans h.machineId
  bindingEpoch := h'.bindingEpoch.trans h.bindingEpoch
  kind := h'.kind.trans h.kind
  payload := h'.payload.trans h.payload
  payloadHash := h'.payloadHash.trans h.payloadHash
  requestKey := h'.requestKey.trans h.requestKey
  queued := fun hc => h.queued (h'.queued hc)

/-- A task that no publication made, of a machine that is there. -/
structure Foreign (db : Database) (task : TaskRow) : Prop where
  kind : task.kind ≠ .applyConfig
  key : isUuid task.requestKey = true
  machine : ∃ machine, db.machines.get? task.machineId = some machine ∧
    task.bindingEpoch ≤ machine.bindingEpoch

theorem Foreign.of_same {db : Database} {task task' : TaskRow} (h : Foreign db task)
    (hsame : SameTask task task') : Foreign db task' where
  kind := by rw [hsame.kind]; exact h.kind
  key := by rw [hsame.requestKey]; exact h.key
  machine := by rw [hsame.machineId, hsame.bindingEpoch]; exact h.machine

/-- Machines stay and their epochs do not go back. An epoch begins with the first binding, or where
`again` allows it. -/
def MachinesLater (again : String → Prop) (db db' : Database) : Prop :=
  ∀ id row, db.machines.get? id = some row →
    ∃ row', db'.machines.get? id = some row' ∧ row.bindingEpoch ≤ row'.bindingEpoch ∧
      (row'.bindingEpoch = row.bindingEpoch ∨ row.bindingEpoch = 0 ∨ again id)

/-- An enrolled machine is in an epoch. -/
def MachineRow.Sound (row : MachineRow) : Prop :=
  0 ≤ row.bindingEpoch ∧ (row.installationId ≠ none → 1 ≤ row.bindingEpoch)

def MachinesSound (db : Database) : Prop :=
  ∀ id row, db.machines.get? id = some row → row.Sound

/-- The calls that the configuration store does not make itself: binding anew goes with the mark
for it, and the tasks that others enqueue apply no configuration. -/
def Call.Ordinary : Call → Prop
  | .rebind .. => False
  | .enqueueTask _ spec requestKey _ => spec.kind ≠ some .applyConfig ∧ isUuid requestKey = true
  | _ => True

/-- What a call on machines leaves of machines and tasks. -/
structure MachineStep (again : String → Prop) (db db' : Database) : Prop where
  frame : ∃ machines tasks, db' = { db with machines, tasks }
  machines : MachinesLater again db db'
  sound : MachinesSound db → MachinesSound db'
  tasks : Table.Grows SameTask (fun _ => Foreign db') db.tasks db'.tasks

theorem MachinesLater.refl (again : String → Prop) (db : Database) : MachinesLater again db db :=
  fun _ row h => ⟨row, h, le_rfl, .inl rfl⟩

theorem MachinesLater.trans {again : String → Prop} {db db' db'' : Database}
    (h : MachinesLater again db db') (h' : MachinesLater again db' db'') :
    MachinesLater again db db'' := by
  intro id row hrow
  obtain ⟨row', hrow', hle, hepoch⟩ := h id row hrow
  obtain ⟨row'', hrow'', hle', hepoch'⟩ := h' id row' hrow'
  refine ⟨row'', hrow'', hle.trans hle', ?_⟩
  rcases hepoch with heq | hfirst
  · rwa [heq] at hepoch'
  · exact .inr hfirst

theorem Foreign.later {again : String → Prop} {db db' : Database} {task : TaskRow}
    (h : Foreign db task) (hlater : MachinesLater again db db') : Foreign db' task where
  kind := h.kind
  key := h.key
  machine := by
    obtain ⟨machine, hmachine, hle⟩ := h.machine
    obtain ⟨machine', hmachine', hle', -⟩ := hlater _ machine hmachine
    exact ⟨machine', hmachine', hle.trans hle'⟩

section Steps

variable {codec : Codec} {now : Int} {again : String → Prop} {db db' db'' : Database}

theorem MachineStep.refl (db : Database) : MachineStep again db db :=
  ⟨⟨_, _, rfl⟩, .refl again db, id, .refl .refl _⟩

theorem MachineStep.trans (h : MachineStep again db db') (h' : MachineStep again db' db'') :
    MachineStep again db db'' where
  frame := by
    obtain ⟨_, _, rfl⟩ := h.frame
    obtain ⟨_, _, rfl⟩ := h'.frame
    exact ⟨_, _, rfl⟩
  machines := h.machines.trans h'.machines
  sound := fun hsound => h'.sound (h.sound hsound)
  tasks := (h.tasks.mono fun _ _ hforeign => hforeign.later h'.machines).trans h'.tasks
    SameTask.trans fun _ _ _ hforeign hsame => hforeign.of_same hsame

/-- A row that is written. -/
theorem machineStep_setMachine {id : String} {new : MachineRow}
    (h : ∀ row, db.machines.get? id = some row → row.bindingEpoch ≤ new.bindingEpoch ∧
      (new.bindingEpoch = row.bindingEpoch ∨ row.bindingEpoch = 0 ∨ again id))
    (hsound : (∀ row, db.machines.get? id = some row → row.Sound) → new.Sound) :
    MachineStep again db (db.setMachine id new) where
  frame := ⟨_, _, rfl⟩
  machines := by
    intro id' row hrow
    by_cases heq : id' = id
    · subst heq
      exact ⟨new, Table.get?_set_self _ _ _, h row hrow⟩
    · exact ⟨row, (Table.get?_set_of_ne _ _ heq).trans hrow, le_rfl, .inl rfl⟩
  sound := by
    intro hall id' row' hrow'
    have hget : (db.machines.set id new).get? id' = some row' := hrow'
    rw [Table.get?_set] at hget
    split_ifs at hget
    · rw [← Option.some.inj hget]
      exact hsound (hall id)
    · exact hall id' row' hget
  tasks := .refl .refl _

theorem machineStep_registered {id : String} {row new : MachineRow} (h : Registered db id row)
    (hle : row.bindingEpoch ≤ new.bindingEpoch)
    (hepoch : new.bindingEpoch = row.bindingEpoch ∨ row.bindingEpoch = 0 ∨ again id)
    (hsound : row.Sound → new.Sound) : MachineStep again db (db.setMachine id new) := by
  refine machineStep_setMachine (fun row' hrow' => ?_) fun hall => hsound (hall row h.1)
  rw [h.1] at hrow'
  obtain rfl := Option.some.inj hrow'
  exact ⟨hle, hepoch⟩

/-- A row that is written with the same epoch and installation. -/
theorem machineStep_same {id : String} {row new : MachineRow} (h : Registered db id row)
    (hepoch : new.bindingEpoch = row.bindingEpoch)
    (hinstallation : new.installationId = row.installationId) :
    MachineStep again db (db.setMachine id new) := by
  refine machineStep_registered h hepoch.ge (.inl hepoch) fun hsound => ?_
  rwa [MachineRow.Sound, hepoch, hinstallation]

theorem machineStep_cancel (id : String) : MachineStep again db (cancelQueued id now db) where
  frame := ⟨_, _, rfl⟩
  machines := .refl again db
  sound := fun h => h
  tasks := by
    refine @Table.grows_updateWhere String TaskRow SameTask _ SameTask.refl (queuedOf id)
      (fun task => { task with state := .canceled, updatedAt := now }) ?_ db.tasks
    intro _ _ _
    exact ⟨rfl, rfl, rfl, rfl, rfl, rfl, fun h => by cases h⟩

theorem machineStep_setTask {taskId : String} {task new : TaskRow}
    (hget : db.tasks.get? taskId = some task) (hsame : SameTask task new) :
    MachineStep again db (db.setTask taskId new) where
  frame := ⟨_, _, rfl⟩
  machines := .refl again db
  sound := fun h => h
  tasks := Table.grows_set_of_some .refl hget hsame

/-- A report never queues its task. -/
theorem sameTask_reported {task : TaskRow} {request : ReportTaskRequest} {state : TaskState}
    (hstate : reportedState request.state = some state) (hash : String)
    (diagnostic : Option String) :
    SameTask task (reportedTask task request state hash diagnostic now) := by
  refine ⟨rfl, rfl, rfl, rfl, rfl, rfl, fun h => ?_⟩
  have hne : state ≠ .queued := by
    rintro rfl
    cases hs : request.state <;> simp [hs, reportedState] at hstate
  exact absurd h hne

/-- What a call of a daemon or a change of a machine does. -/
theorem machineStep_effect {entry : Entry} (h : Effect codec now entry db db')
    (hentry : entry ≠ .administered) (hagain : ∀ id, entry = .rebound id → again id) :
    MachineStep again db db' := by
  cases h with
  | created => exact absurd rfl hentry
  | updated => exact absurd rfl hentry
  | enqueued => exact absurd rfl hentry
  | kept => exact absurd rfl hentry
  | @bound _ _ row identity info h =>
    have hepoch : (boundRow row identity info now).bindingEpoch =
        if row.bindingEpoch = 0 then 1 else row.bindingEpoch := rfl
    refine machineStep_registered h ?_ ?_ fun hsound => ⟨?_, fun _ => ?_⟩
    · rw [hepoch]
      split_ifs <;> omega
    · rw [hepoch]
      split_ifs with hzero
      · exact .inr (.inl hzero)
      · exact .inl rfl
    · rw [hepoch]
      have := hsound.1
      split_ifs <;> omega
    · rw [hepoch]
      have := hsound.1
      split_ifs <;> omega
  | @rebound _ id _ row h =>
    refine (machineStep_registered h ?_ (.inr (.inr (hagain id rfl))) fun hsound => ?_).trans
      (machineStep_cancel _)
    · exact Int.le_add_one le_rfl
    · exact ⟨Int.add_nonneg hsound.1 (by decide), fun hne => absurd rfl hne⟩
  | tokenReset h => exact machineStep_same h rfl rfl
  | removed h =>
    refine (machineStep_same h ?_ ?_).trans (machineStep_cancel _)
    · exact rfl
    · exact rfl
  | checked => exact .refl db
  | reaccepted => exact .refl db
  | accepted _ htask =>
    exact machineStep_setTask htask.1 ⟨rfl, rfl, rfl, rfl, rfl, rfl, fun h => by cases h⟩
  | status h => exact machineStep_same h.1 rfl rfl
  | rereported => exact .refl db
  | reported _ htask _ hstate =>
    unfold storedReport
    dsimp only
    split_ifs
    · exact (machineStep_setTask htask.1 (sameTask_reported hstate _ _)).trans
        (machineStep_cancel _)
    · exact machineStep_setTask htask.1 (sameTask_reported hstate _ _)

/-- A task that others enqueue. -/
theorem machineStep_enqueueTask {id requestKey taskId task : String} {spec : TaskSpec}
    (hkind : spec.kind ≠ some .applyConfig) (hkey : isUuid requestKey = true)
    (h : enqueueTask codec id spec requestKey taskId now db = .ok (task, db')) :
    MachineStep again db db' := by
  obtain ⟨row, kind, hrow, hspec, ⟨-, -, -, -, -, -, rfl⟩ | ⟨rfl, hnew, -, -, rfl⟩⟩ :=
    enqueueTask_eq_ok h
  · exact .refl db'
  · have hother : kind ≠ .applyConfig := by
      rintro rfl
      exact hkind hspec
    refine ⟨⟨_, _, rfl⟩, .refl again db, fun h => h, ?_⟩
    unfold enqueued
    rw [if_neg hother]
    exact Table.grows_set_of_none .refl hnew ⟨hother, hkey, row, hrow.1, le_rfl⟩

/-- **An ordinary call** leaves the configurations, moves no epoch back and adds no target. -/
theorem machineStep_perform {call : Call} {entry : Entry} (hcall : call.Ordinary)
    (h : perform codec now db call = .ok (entry, db')) :
    MachineStep (fun _ => False) db db' := by
  have heffect := perform_effect h
  -- The calls of daemons and the changes of machines bind nothing anew.
  have hstep : entry ≠ .administered → (∀ id, entry ≠ .rebound id) →
      MachineStep (fun _ => False) db db' := fun hentry hagain =>
    machineStep_effect heffect hentry fun id heq => hagain id heq
  cases call with
  | create id token =>
    simp only [perform, create, bind_eq_ok, failIf_eq_ok, found_eq_ok, pure_eq_ok, exists_const,
      Prod.mk.injEq, Table.insert?_eq_some] at h
    obtain ⟨db₁, ⟨-, machines, ⟨hnone, rfl⟩, rfl⟩, -, rfl⟩ := h
    refine machineStep_setMachine (fun row hrow => ?_) fun _ => ⟨le_rfl, fun hne => absurd rfl hne⟩
    rw [hnone] at hrow
    cases hrow
  | update id expectedVersion =>
    simp only [perform, update, bind_eq_ok, failIf_eq_ok, get_eq_ok, pure_eq_ok, exists_const,
      Prod.mk.injEq] at h
    obtain ⟨db₁, ⟨row, hrow, -, rfl⟩, -, rfl⟩ := h
    exact machineStep_same hrow rfl rfl
  | enqueueTask id spec requestKey taskId =>
    simp only [perform, bind_eq_ok, pure_eq_ok, Prod.exists, Prod.mk.injEq] at h
    obtain ⟨task, db₁, henqueue, -, rfl⟩ := h
    exact machineStep_enqueueTask hcall.1 hcall.2 henqueue
  | rebind id expectedVersion token => exact hcall.elim
  | watchTasks header installation info =>
    simp only [perform, openSession, bind_eq_ok, pure_eq_ok, Prod.exists, Prod.mk.injEq] at h
    obtain ⟨_, _, -, _, _, -, rfl, -⟩ := h
    exact hstep (fun h => by cases h) fun _ h => by cases h
  | acceptTask header installation sessionEpoch taskId hash =>
    simp only [perform, acceptTask, bind_eq_ok, pure_eq_ok, Prod.exists, Prod.mk.injEq] at h
    obtain ⟨_, _, _, ⟨_, _, -, _, -, _, _, -, rfl, -, -⟩, rfl, -⟩ := h
    exact hstep (fun h => by cases h) fun _ h => by cases h
  | reportStatus header installation sessionEpoch sequence status =>
    simp only [perform, submitStatus, bind_eq_ok, pure_eq_ok, Prod.exists, Prod.mk.injEq] at h
    obtain ⟨_, _, -, _, -, _, _, -, rfl, -⟩ := h
    unfold statusEntry at hstep
    split_ifs at hstep
    · exact hstep (fun h => by cases h) fun _ h => by cases h
    · exact hstep (fun h => by cases h) fun _ h => by cases h
  | reportTask header request =>
    simp only [perform, submitReport, bind_eq_ok, pure_eq_ok, Prod.exists, Prod.mk.injEq] at h
    obtain ⟨_, _, _, ⟨_, _, -, _, -, _, _, -, rfl, -, -⟩, rfl, -⟩ := h
    exact hstep (fun h => by cases h) fun _ h => by cases h
  | resetToken id token =>
    simp only [perform, bind_eq_ok, pure_eq_ok, Prod.mk.injEq] at h
    obtain ⟨_, -, rfl, -⟩ := h
    exact hstep (fun h => by cases h) fun _ h => by cases h
  | remove id =>
    simp only [perform, bind_eq_ok, pure_eq_ok, Prod.mk.injEq] at h
    obtain ⟨_, -, rfl, -⟩ := h
    exact hstep (fun h => by cases h) fun _ h => by cases h

end Steps

end Bifurcation.Panel
