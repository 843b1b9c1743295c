import Bifurcation.Lib.JsonWire
import Bifurcation.Panel.MachineCalls
import Bifurcation.Panel.Policy
import Bifurcation.Panel.Settings
import Bifurcation.Panel.Subscriptions

/-!
# Machine configurations

`configuration/store.ts`, with the rebinding of `rpc/panel/machines-service.ts` and the cleaning
of `configuration/maintenance.ts`. An administrator previews settings and publishes a preview;
`reconcile` publishes again when the policy has changed. A publication stores a revision, points
the machine at it, remembers its users and enqueues the task that applies it.

**Secrets.** A column whose name ends in `Ciphertext` is encrypted; a `ConfigVault` says what
reading one gives, and a call is given the ciphertexts and the ids it draws.
-/

namespace Bifurcation.Panel

open Javascript

/-- What the panel's key gives, of the proxy identities and of stored configurations. -/
structure ConfigVault (N : Type) extends Vault where
  /-- `JSON.parse(decryptSecret(text))` of settings. -/
  settingsOf : String → Option (MachineConfigurationInput N)
  /-- `decryptSecret(text)`. -/
  renderedOf : String → Option JsString

/-- What a call draws: ciphertexts, the id of a preview or a revision, and the id of a task. -/
structure Draws (N : Type) where
  secrets : String → String
  settings : MachineConfigurationInput N → String
  rendered : JsString → String
  id : String
  taskId : String

/-- Reading a field of `undefined`. -/
def typeError : PanelError := .app "TypeError" "Cannot read properties of undefined" 500

/-- `Number(text)`, of the decimal text of an integer. -/
def integerOf (text : String) : Int :=
  match text.toList with
  | '-' :: digits => -(Nat.ofDigitChars 10 digits 0 : ℕ)
  | digits => (Nat.ofDigitChars 10 digits 0 : ℕ)

/-- `Number(authorization.policyRevision)`. -/
def policyNumber (authorization : AuthorizationLayer) : Int :=
  integerOf (textOf authorization.policyRevision)

def userIds (authorization : AuthorizationLayer) : List String :=
  authorization.users.map fun user => textOf user.id

/-! ## Rebinding -/

def markForRebind (machineId : String) (db : Database) : Except PanelError Database := do
  let _ ← get db machineId
  return { db with
    machineConfigs := db.machineConfigs.updateWhere (fun id _ => id = machineId) fun row =>
      { row with desiredPolicyRevision := 0 } }

/-- The transaction of `rebindMachine`. -/
def rebindMachine (machineId : String) (expectedVersion : Int) (token : String) (now : Int)
    (db : Database) : Except PanelError Database := do
  let db ← rebind machineId expectedVersion token now db
  markForRebind machineId db

/-! ## Previews -/

/-- The machine and its configuration row, which is created when there is none. -/
def ensureMachine (machineId : String) (db : Database) :
    Except PanelError (ConfigRow × Database) := do
  let machine ← get db machineId
  failIf (isUninstalled db machineId machine.bindingEpoch)
    (.app "MACHINE_UNINSTALLED" "节点已卸载，请移除记录或重新绑定实例后接入" 409)
  match db.machineConfigs.get? machineId with
  | some row => return (row, db)
  | none => return ({}, { db with machineConfigs := db.machineConfigs.set machineId {} })

structure ConfigurationPreview where
  previewId : String
  expectedVersion : Int
  policyRevision : JsString
  digest : String
  finalJson : JsString
  expiresAt : Int
deriving DecidableEq

section Store

variable {N : Type} (js : Runtime N) (codec : Codec) (vault : ConfigVault N)

/-- The transaction of `preview`, on settings that `validateSettings` accepted. -/
def preview (draws : Draws N) (now : Int) (machineId : String) (expectedVersion : Int)
    (settings : MachineConfigurationInput N) (createdBy : String) (db : Database) :
    Except PanelError (ConfigurationPreview × Database) := do
  let (row, db) ← ensureMachine machineId db
  failIf (row.version ≠ expectedVersion)
    (.app "VERSION_CONFLICT" "配置已更新，请刷新后重新预览" 409)
  let (authorization, db) ← refresh vault.toVault draws.secrets now db
  let value := renderServer js settings authorization
  let result : ConfigurationPreview :=
    { previewId := draws.id, expectedVersion := row.version
      policyRevision := authorization.policyRevision, digest := sha256 (jsonBytes js value)
      finalJson := jsonText js value, expiresAt := now + 10 * 60000 }
  let configPreviews ← found .constraint (db.configPreviews.insert? result.previewId
    { machineId, settingsCiphertext := draws.settings settings
      renderedCiphertext := draws.rendered result.finalJson, digest := result.digest
      expectedVersion := row.version, policyRevision := policyNumber authorization
      expiresAt := result.expiresAt, createdBy })
  return (result, { db with configPreviews })

/-! ## Publishing -/

/-- What `publishInput` accepts. -/
structure PublishInput where
  previewId : String
  expectedVersion : Int
  requestKey : NewId

structure ConfigurationPublish where
  revisionId : String
  version : Int
  taskId : String
deriving DecidableEq

def rememberUsers (machineId : String) (authorization : AuthorizationLayer) (db : Database) :
    Database :=
  { db with
    machineUserHistory := (userIds authorization).foldl
      (fun history userId => history.set (machineId, userId) ()) db.machineUserHistory }

/-- The unique index on machine and version. -/
def versionTaken (db : Database) (machineId : String) (version : Int) : Bool :=
  db.configRevisions.rows.any fun x => x.2.machineId = machineId && x.2.version = version

/-- `tx.insert(configRevisions)`. -/
def insertRevision (revisionId : String) (revision : RevisionRow) (db : Database) :
    Except PanelError Database := do
  failIf (versionTaken db revision.machineId revision.version) .constraint
  let configRevisions ← found .constraint (db.configRevisions.insert? revisionId revision)
  return { db with configRevisions }

/-- The answer to a publication that was made before. -/
def published (machineId : String) (revisionId : String) (requestKey : String) (db : Database) :
    Except PanelError ConfigurationPublish := do
  let existing := db.tasks.rows.find? fun x =>
    x.2.machineId = machineId && x.2.requestKey = requestKey
  let used : PanelError := .app "PREVIEW_USED" "此预览已发布，请重新预览" 409
  match existing with
  | none => .error used
  | some existing => do
    let spec ← found .protobuf (codec.taskSpecFromBinary existing.2.payload)
    let target : Option String := match spec with
      | .applyConfig target _ => some target
      | _ => none
    failIf (target ≠ some revisionId) used
    let revision ← found typeError (db.configRevisions.get? revisionId)
    return ⟨revisionId, revision.version, existing.1⟩

/-- The transaction of `publish`. -/
def publish (draws : Draws N) (now : Int) (machineId : String) (input : PublishInput)
    (createdBy : String) (db : Database) : Except PanelError (ConfigurationPublish × Database) := do
  let machine ← get db machineId
  let preview ← found (.app "PREVIEW_NOT_FOUND" "预览不存在，请重新预览" 404)
    ((db.configPreviews.get? input.previewId).filter fun preview =>
      preview.machineId = machineId && preview.createdBy = createdBy)
  match preview.publishedRevisionId with
  | some revisionId => do
    let result ← published codec machineId revisionId input.requestKey.1 db
    return (result, db)
  | none => do
    failIf (preview.expiresAt ≤ now) (.app "PREVIEW_EXPIRED" "预览已过期，请重新预览" 409)
    let (row, db) ← ensureMachine machineId db
    failIf (row.version ≠ input.expectedVersion ∨ preview.expectedVersion ≠ row.version)
      (.app "VERSION_CONFLICT" "配置已更新，请重新预览" 409)
    let (authorization, db) ← refresh vault.toVault draws.secrets now db
    failIf (authorization.policyRevision ≠ integerText preview.policyRevision)
      (.app "STALE_POLICY" "账号授权已变化，请重新预览" 409)
    failIf (machine.os ≠ some "linux")
      (.app "UNSUPPORTED_OS" "节点配置仅支持 Linux daemon" 422)
    let version := row.version + 1
    let db ← insertRevision draws.id
      { machineId, version, settingsCiphertext := preview.settingsCiphertext
        renderedCiphertext := preview.renderedCiphertext, digest := preview.digest
        policyRevision := preview.policyRevision, authorizedUserIds := userIds authorization
        createdAt := now, createdBy := some createdBy } db
    let db := { db with
      machineConfigs := db.machineConfigs.set machineId
        { settingsCiphertext := some preview.settingsCiphertext, version
          desiredRevisionId := some draws.id, desiredPolicyRevision := preview.policyRevision }
      configPreviews := db.configPreviews.set input.previewId
        { preview with publishedRevisionId := some draws.id } }
    let db := rememberUsers machineId authorization db
    let (taskId, db) ← enqueueTask codec machineId (.applyConfig draws.id preview.policyRevision)
      input.requestKey.1 draws.taskId now db
    return (⟨draws.id, version, taskId⟩, db)

/-! ## Reading -/

structure ConfigResponse where
  revisionId : String := ""
  configJson : Bytes := []
  configSha256 : String := ""
  policyRevision : Int := 0
  latestAuthorizationJson : Bytes
  latestPolicyRevision : Int

/-- The answer of `getConfig` with the authorization of its refresh. An empty id asks for the
revision the machine should run. -/
def configResponse (machineId : String) (authorizationOnly : Bool) (revisionId : String)
    (latest : AuthorizationLayer) (db : Database) : Except PanelError ConfigResponse := do
  if authorizationOnly then
    return { latestAuthorizationJson := jsonBytes js (latest.json js)
             latestPolicyRevision := policyNumber latest }
  else
    let desired := (db.machineConfigs.get? machineId).bind ConfigRow.desiredRevisionId
    let wanted := if revisionId = "" then desired else some revisionId
    let revision ← found (.app "CONFIG_NOT_FOUND" "配置版本不存在" 404)
      ((wanted.bind fun id => (db.configRevisions.get? id).map fun row => (id, row)).filter
        fun revision => revision.1 ≠ "" && revision.2.machineId = machineId)
    let text ← found .ciphertext (vault.renderedOf revision.2.renderedCiphertext)
    return { revisionId := revision.1, configJson := bufferFrom text
             configSha256 := revision.2.digest, policyRevision := revision.2.policyRevision
             latestAuthorizationJson := jsonBytes js (latest.json js)
             latestPolicyRevision := policyNumber latest }

/-- `getConfig`: its answer, and the database. It runs outside a transaction, so what its refresh
committed stays when it throws later. -/
def getConfig (fresh : String → String) (now : Int) (machineId : String)
    (authorizationOnly : Bool) (revisionId : String) (db : Database) :
    Except PanelError ConfigResponse × Database :=
  let refreshed : Except PanelError (AuthorizationLayer × Database) := do
    let machine ← get db machineId
    failIf (isUninstalled db machineId machine.bindingEpoch)
      (.app "MACHINE_UNINSTALLED" "节点已完成卸载，不能获取新的代理凭据" 403)
    refresh vault.toVault fresh now db
  match refreshed with
  | .error e => (.error e, db)
  | .ok (latest, db) => (configResponse js vault machineId authorizationOnly revisionId latest db, db)

/-! ## Reconciling -/

/-- `policy:${machine.id}:${machine.bindingEpoch}:${authorization.policyRevision}`. -/
def policyKey (machineId : String) (bindingEpoch : Int) (policyRevision : String) : String :=
  "policy:" ++ machineId ++ ":" ++ toString bindingEpoch ++ ":" ++ policyRevision

/-- The transaction of `reconcile` for one machine, whose row was read before: whether it
published, and the database. -/
def reconcileMachine (draws : Draws N) (now : Int) (authorization : AuthorizationLayer)
    (machineId : String) (machine : MachineRow) (db : Database) :
    Except PanelError (Bool × Database) := do
  let current ← found typeError (db.machineConfigs.get? machineId)
  match current.settingsCiphertext with
  | none => return (false, db)
  | some settingsCiphertext =>
    if current.desiredPolicyRevision ≥ policyNumber authorization then return (false, db) else
    let settings ← found .ciphertext (vault.settingsOf settingsCiphertext)
    let value := renderServer js settings authorization
    let version := current.version + 1
    let db ← insertRevision draws.id
      { machineId, version, settingsCiphertext
        renderedCiphertext := draws.rendered (jsonText js value), digest := sha256 (jsonBytes js value)
        policyRevision := policyNumber authorization, authorizedUserIds := userIds authorization
        createdAt := now, createdBy := none } db
    let db := { db with
      machineConfigs := db.machineConfigs.set machineId
        { current with
          version, desiredRevisionId := some draws.id
          desiredPolicyRevision := policyNumber authorization } }
    let db := rememberUsers machineId authorization db
    let (_, db) ← enqueueTask codec machineId
      (.applyConfig draws.id (policyNumber authorization))
      (policyKey machineId machine.bindingEpoch (textOf authorization.policyRevision))
      draws.taskId now db
    return (true, db)

/-- The body of the loop of `reconcile`: a machine whose transaction fails is left for later. -/
def reconcileStep (draws : String → Draws N) (now : Int) (authorization : AuthorizationLayer)
    (state : List String × Database) (configured : String × ConfigRow × MachineRow) :
    List String × Database :=
  let (machineId, configuration, machine) := configured
  if isUninstalled state.2 machineId machine.bindingEpoch then state
  else if configuration.settingsCiphertext = none ∨
      configuration.desiredPolicyRevision ≥ policyNumber authorization then state
  else if machine.supportedTasks.contains TaskKind.applyConfig.number = false ∨
      machine.installationId = none then state
  else
    match reconcileMachine js codec vault (draws machineId) now authorization machineId machine
        state.2 with
    | .error _ => state
    | .ok (true, db) => (state.1 ++ [machineId], db)
    | .ok (false, _) => state

/-- The machines with a configuration row that were not removed. -/
def configured (db : Database) : List (String × ConfigRow × MachineRow) :=
  db.machineConfigs.rows.filterMap fun x =>
    ((db.machines.get? x.1).filter fun machine => machine.removedAt.isNone).map fun machine =>
      (x.1, x.2, machine)

def reconcile (fresh : String → String) (draws : String → Draws N) (now : Int) (db : Database) :
    Except PanelError (List String × Database) := do
  let (authorization, db) ← refresh vault.toVault fresh now db
  return (configured db).foldl (reconcileStep js codec vault draws now authorization) ([], db)

/-- The cleaning of `startProxyMaintenance`: a preview goes a day after it expired. -/
def cleanPreviews (now : Int) (db : Database) : Database :=
  { db with
    configPreviews := db.configPreviews.deleteWhere fun _ preview =>
      decide (preview.expiresAt ≤ now - 24 * 60 * 60000) }

end Store

end Bifurcation.Panel
