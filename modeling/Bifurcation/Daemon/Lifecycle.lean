import Bifurcation.Daemon.Core
import Bifurcation.Daemon.Usage
import Bifurcation.Lib.Interruptible

/-!
# Instances of the embedded core

The part of `adapters/singbox` that starts and stops one instance: the traffic tracker, the
sampling of its counters, `start`, `closeInstance`, and `retryFinal` with the queue of final
samples that could not be persisted yet.

The environment of these functions is the sing-box library, the clock, the random source, the
traffic and the database file. It is consulted once for each call the source makes on it, and an
`Answer` holds what any of these calls can learn. Health texts and logs are left out.
-/

namespace Bifurcation.Daemon

/-- One answer of the environment. Each consultation reads the fields it needs. -/
structure Answer where
  /-- The core's own operation succeeded: building, starting, closing, draining. -/
  ok : Bool
  /-- The database operation was carried out, and its context had not expired. -/
  stored : Bool
  now : Int
  nonce : String
  upload : String → Int
  download : String → Int

inductive Fault where
  | database
  | core (e : CoreError)
  | sample (e : StoreError)
  | noCallback
  | build
  | boxStart
  | context
  | close
  | drain
  | closeFailure (lifecycle sample : Bool)
  | authorization
  | revisionMismatch
  | stalePolicy
  | unknownPolicy
  | digest
  | configuration
  | users
deriving DecidableEq

structure Tracker where
  userIDs : List String
  runtimeID : String
  startedAt : Int
deriving DecidableEq

def newTracker (users : List String) (runtimeID : String) (startedAt : Int) : Tracker where
  userIDs := ((users.filter (· ≠ "")).dedup).insertionSort (· ≤ ·)
  runtimeID := runtimeID
  startedAt := startedAt

/-- The traffic of every user, read at `observedAt`. -/
def Tracker.counters (t : Tracker) (upload download : String → Int) (observedAt : Int) :
    List Counter :=
  t.userIDs.map fun id =>
    { userID := id, runtimeID := t.runtimeID, upload := upload id, download := download id
      observedAt, startedAt := t.startedAt, final := false }

/-- A built core. `config`, `authorization` and `revision` record what it was built from. -/
structure Instance where
  runtimeID : String
  users : List String
  tracker : Option Tracker
  config : Bytes
  authorization : Bytes
  revision : Int
deriving DecidableEq

/-- A started instance, with the authorization that was stored at that moment. -/
structure Started where
  current : Instance
  stored : Bytes

/-- The adapter over its database: the core row and the usage tables are durable, the active
instance and the pending final samples are not. `stored` and `started` are histories, of the core
states that were stored and of the instances that were started. -/
structure Machine (S : Type) where
  core : CoreRow
  usage : S
  active : Option Instance
  pendingFinal : List (List Counter)
  stored : List CoreState
  started : List Started

abbrev AdapterM (S : Type) := Prog Answer (Machine S)

section Lifecycle

variable {S : Type} (sink : Option (S → List Counter → Except StoreError S))

open Prog

/-- Hand a sample to the persistence callback. -/
def persist (sample : List Counter) : AdapterM S (Option Fault) :=
  match sink with
  | none => return some .noCallback
  | some sink => do
    let answer ← ask
    if ¬ answer.stored then return some .database else
    let m ← get
    match sink m.usage sample with
    | .error e => return some (.sample e)
    | .ok usage => do
      modify fun m => { m with usage }
      return none

/-- Hand over a sample that has counters. -/
def persistAny (sample : List Counter) : AdapterM S (Option Fault) :=
  if sample.length > 0 then persist sink sample else return none

/-- Drop the first pending sample of a runtime. -/
def acknowledgeFinalSample (runtimeID : String) (pending : List (List Counter)) :
    List (List Counter) :=
  pending.eraseP fun sample => sample.head?.any fun c => c.runtimeID = runtimeID

/-- The loop of `retryFinal`. Every round takes one sample off the queue, so the length of the
queue bounds the rounds. -/
def retryFinalFrom : ℕ → AdapterM S (Option Fault)
  | 0 => return none
  | n + 1 => do
    let m ← get
    match m.pendingFinal with
    | [] => return none
    | sample :: rest => do
      match ← persist sink sample with
      | some fault => return some fault
      | none => do
        modify fun m => { m with
          pendingFinal := match sample with
            | [] => rest
            | c :: _ => acknowledgeFinalSample c.runtimeID m.pendingFinal }
        retryFinalFrom n

def retryFinal : AdapterM S (Option Fault) := do
  let m ← get
  retryFinalFrom sink m.pendingFinal.length

/-- Start a built instance: the instance as it is then, and the fault that stopped it. -/
def start (current : Instance) : AdapterM S (Instance × Option Fault) := do
  match ← retryFinal sink with
  | some fault => return (current, some fault)
  | none => do
    let clock ← ask
    let tracker := newTracker current.users current.runtimeID clock.now
    let current := { current with tracker := some tracker }
    let clock ← ask
    let baseline := tracker.counters (fun _ => 0) (fun _ => 0) clock.now
    match ← persistAny sink baseline with
    | some fault => return (current, some fault)
    | none => do
      modify fun m => { m with started := m.started ++ [⟨current, (readCore m.core).authorization⟩] }
      let box ← ask
      if ¬ box.ok then return (current, some .boxStart) else
      let context ← ask
      return (current, if context.ok then none else some .context)

/-- Stop an instance and persist its final sample, or queue it. -/
def closeInstance (current : Option Instance) : AdapterM S (Option Fault) :=
  match current with
  | none => return none
  | some current => do
    let box ← ask
    match current.tracker with
    | none => return if box.ok then none else some .close
    | some tracker => do
      let drained ← ask
      if ¬ drained.ok then return some .drain else
      let traffic ← ask
      let sample := (tracker.counters traffic.upload traffic.download traffic.now).map
        fun c => { c with final := true }
      let finalErr ← persistAny sink sample
      if finalErr.isSome then
        modify fun m => { m with pendingFinal := m.pendingFinal ++ [sample] }
      return if box.ok ∧ finalErr = none then none
        else some (.closeFailure (!box.ok) finalErr.isSome)

end Lifecycle

end Bifurcation.Daemon
