import Bifurcation.Daemon.Lifecycle
import Bifurcation.Daemon.Policy

/-!
# Applying configurations

`Apply`, `rollback`, `Recover` and `Close` of `adapters/singbox`, over the stored core state and
the lifecycle of instances. The functions are cut where the source's own steps end, so that each
part has one postcondition: `replaceWith` is the switch to the candidate, `restore` the start of
the previous configuration in a rollback.
-/

namespace Bifurcation.Daemon

/-- `core.Configuration`. -/
structure Configuration where
  taskID : String
  revisionID : String
  policyRevision : Int
  latestPolicyRevision : Int
  json : Bytes
  sha256 : String
  authorization : Bytes

inductive Rollback where
  | unset
  | notNeeded
  | failed
  | succeeded
deriving DecidableEq

/-- What `Apply` answers: the rollback report and the joined errors. -/
structure ApplyResult where
  rollback : Rollback
  faults : List Fault
deriving DecidableEq

/-- The checks of `build` on its documents: the users and the revision of the authorization. -/
def builtFrom (raw authorization : Bytes) : Option (List String × Int) := do
  let (auth, revision, _) ← parseAuthorization authorization
  let config ← decodeConfig raw
  let services := match Json.lookup "services" config with
    | some (.arr (_ :: _)) => true
    | _ => false
  let present := fun (key : String) (members : List (String × Json)) =>
    match Json.lookup key members with
    | none => false
    | some .null => false
    | some _ => true
  let external := match Json.lookup "experimental" config with
    | some (.obj members) => present "v2ray_api" members || present "clash_api" members
    | _ => false
  if services || external then none else some (auth.list.map (·.id), revision)

/-- The checks of `Apply` on a configuration, against the authorization just persisted. -/
def checkConfiguration (config : Configuration) (revision : Int) (auth : Bytes) : Option Fault :=
  if config.policyRevision < revision then some .stalePolicy
  else if config.policyRevision ≠ revision then some .unknownPolicy
  else if sha256 config.json ≠ config.sha256 then some .digest
  else
    match mergeAuthorization config.json auth with
    | none => some .configuration
    | some merged =>
      match decodeConfig config.json, decodeConfig merged with
      | some original, some merged =>
        if Json.print (.obj original) ≠ Json.print (.obj merged) then some .users else none
      | _, _ => some .configuration

/-- The running configuration is the one to be applied. -/
def unchanged (active : Option Instance) (previous : CoreState) (config : Configuration) : Bool :=
  active.isSome && previous.appliedRevision = config.revisionID &&
    previous.appliedPolicy = config.policyRevision && previous.appliedConfig = config.json

/-- The machine with another core row stored. -/
def Machine.write {S : Type} (m : Machine S) (row : CoreRow) : Machine S :=
  { m with core := row, stored := m.stored ++ row.toList }

section Adapter

variable {S : Type} (sink : Option (S → List Counter → Except StoreError S))

open Prog

/-- Read the stored core state. -/
def coreState : AdapterM S (Except Fault CoreState) := do
  let answer ← ask
  let m ← get
  return if answer.stored then .ok (readCore m.core) else .error .database

/-- Run one transaction on the stored core state. -/
def writeCore (write : CoreRow → Except CoreError CoreRow) : AdapterM S (Option Fault) := do
  let answer ← ask
  if ¬ answer.stored then return some .database else
  let m ← get
  match write m.core with
  | .error e => return some (.core e)
  | .ok row => do
    modify fun m => m.write row
    return none

def build (raw authorization : Bytes) : AdapterM S (Option Instance) :=
  match builtFrom raw authorization with
  | none => return none
  | some (users, revision) => do
    let box ← ask
    return if box.ok then
      some { runtimeID := "embedded-" ++ box.nonce, users, tracker := none
             config := raw, authorization, revision }
    else none

def detach : AdapterM S (Option Instance) := do
  let m ← get
  modify fun m => { m with active := none }
  return m.active

def activate (current : Option Instance) : AdapterM S Unit :=
  modify fun m => { m with active := current }

/-- Build and start the previous configuration with the latest users. -/
def restore (safe authorization : Bytes) : AdapterM S (Option Fault) := do
  match ← build safe authorization with
  | none => do
    activate none
    return some .build
  | some restored => do
    let (restored, fault) ← start sink restored
    match fault with
    | some fault => do
      let _ ← closeInstance sink (some restored)
      activate none
      return some fault
    | none => do
      activate (some restored)
      return none

def rollback (previous : CoreState) (cause : Fault) : AdapterM S ApplyResult := do
  let old ← detach
  let _ ← closeInstance sink old
  if previous.appliedConfig.length = 0 then do
    activate none
    let _ ← writeCore abortCore
    return ⟨.notNeeded, [cause]⟩
  else
    match ← coreState with
    | .error fault => return ⟨.failed, [cause, fault]⟩
    | .ok latest =>
      match mergeAuthorization previous.appliedConfig latest.authorization with
      | none => return ⟨.failed, [cause, .configuration]⟩
      | some safe => do
        match ← restore sink safe latest.authorization with
        | some fault => return ⟨.failed, [cause, fault]⟩
        | none => do
          match ← writeCore (commitCore previous.appliedRevision latest.policyFloor safe) with
          | some fault => return ⟨.failed, [cause, fault]⟩
          | none => return ⟨.succeeded, [cause]⟩

/-- The exit of `Apply` before anything was prepared. -/
def fail (previous : CoreState) (revision : Int) (cause : Fault) : AdapterM S ApplyResult :=
  if previous.appliedConfig.length > 0 ∧ previous.appliedPolicy < revision then
    rollback sink previous cause
  else return ⟨.notNeeded, [cause]⟩

/-- Stop the running instance and start the candidate in its place. -/
def replaceWith (candidate : Instance) : AdapterM S (Option Fault) := do
  let old ← detach
  let _ ← closeInstance sink old
  let (candidate, fault) ← start sink candidate
  match fault with
  | some fault => do
    let _ ← closeInstance sink (some candidate)
    return some fault
  | none => do
    activate (some candidate)
    return none

/-- `Apply` once the task is prepared. -/
def applyPrepared (config : Configuration) (previous : CoreState) (candidate : Instance) :
    AdapterM S ApplyResult := do
  match ← replaceWith sink candidate with
  | some fault => rollback sink previous fault
  | none => do
    match ← writeCore (commitCore config.revisionID config.policyRevision config.json) with
    | some fault => rollback sink previous fault
    | none => do
      match ← coreState with
      | .error fault => return ⟨.notNeeded, [fault]⟩
      | .ok _ => return ⟨.notNeeded, []⟩

/-- `Apply` once the candidate is built. A candidate that is not prepared is disposed of. -/
def applyBuilt (config : Configuration) (previous : CoreState) (candidate : Instance) :
    AdapterM S ApplyResult := do
  match ← writeCore (prepareCore config.taskID config.revisionID config.policyRevision config.json) with
  | some fault => return ⟨.unset, [fault]⟩
  | none => applyPrepared sink config previous candidate

/-- `Apply` once the policy is persisted. -/
def applyPersisted (config : Configuration) (previous : CoreState) (revision : Int)
    (auth : Bytes) : AdapterM S ApplyResult :=
  match checkConfiguration config revision auth with
  | some cause => fail sink previous revision cause
  | none => do
    let m ← get
    if unchanged m.active previous config then return ⟨.notNeeded, []⟩ else
    match ← build config.json auth with
    | none => fail sink previous revision .build
    | some candidate => applyBuilt sink config previous candidate

def apply (config : Configuration) : AdapterM S ApplyResult := do
  match ← coreState with
  | .error fault => return ⟨.unset, [fault]⟩
  | .ok previous =>
    match parseAuthorization config.authorization with
    | none => return ⟨.unset, [.authorization]⟩
    | some (_, revision, auth) =>
      if revision ≠ config.latestPolicyRevision then return ⟨.unset, [.revisionMismatch]⟩ else
      match ← writeCore (persistPolicy revision auth) with
      | some _ => return ⟨.unset, [.stalePolicy]⟩
      | none => applyPersisted sink config previous revision auth

/-- `Recover` once the configuration to start is chosen. -/
def recoverWith (saved : CoreState) (safe : Bytes) : AdapterM S (Option Fault) := do
  match ← build safe saved.authorization with
  | none => return some .build
  | some candidate => do
    let (candidate, fault) ← start sink candidate
    match fault with
    | some fault => do
      let _ ← closeInstance sink (some candidate)
      return some fault
    | none => do
      activate (some candidate)
      if saved.appliedPolicy = saved.policyFloor ∧ saved.stage = .idle then return none else
      writeCore (commitCore saved.appliedRevision saved.policyFloor safe)

def recover : AdapterM S (Option Fault) := do
  match ← coreState with
  | .error fault => return some fault
  | .ok saved =>
    if saved.appliedConfig.length = 0 then
      if saved.stage ≠ .idle then writeCore abortCore else return none
    else if saved.appliedPolicy ≠ saved.policyFloor ∨ saved.stage ≠ .idle then
      match mergeAuthorization saved.appliedConfig saved.authorization with
      | none => return some .configuration
      | some safe => recoverWith sink saved safe
    else recoverWith sink saved saved.appliedConfig

def close : AdapterM S (Option Fault) := do
  let old ← detach
  let err ← closeInstance sink old
  activate none
  match ← retryFinal sink with
  | some fault => return some (err.getD fault)
  | none =>
    match err with
    | some (.closeFailure lifecycle _) => return if lifecycle then some .close else none
    | err => return err

/-! ## Runs of the adapter -/

/-- A call, with the environment's answers. A call whose answers run out was killed there. -/
inductive AdapterEvent where
  | apply (config : Configuration) (answers : List Answer)
  | recover (answers : List Answer)
  | close (answers : List Answer)
  | restart

/-- What a new process finds. -/
def Machine.restart (m : Machine S) : Machine S := { m with active := none, pendingFinal := [] }

/-- The machine after a call: a process that was killed is started again. -/
def Machine.after {α : Type} (r : Machine S × Option α) : Machine S :=
  match r.2 with
  | some _ => r.1
  | none => r.1.restart

def Machine.step (m : Machine S) : AdapterEvent → Machine S
  | .apply config answers => .after ((apply sink config).run m answers)
  | .recover answers => .after ((recover sink).run m answers)
  | .close answers => .after ((close sink).run m answers)
  | .restart => m.restart

/-- An adapter over a new database. -/
def Machine.init (usage : S) : Machine S := ⟨none, usage, none, [], [], []⟩

def Machine.runFrom (m : Machine S) (events : List AdapterEvent) : Machine S :=
  events.foldl (Machine.step sink) m

end Adapter

end Bifurcation.Daemon
