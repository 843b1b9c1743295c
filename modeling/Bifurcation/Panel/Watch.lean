import Bifurcation.Lib.Table

/-!
# Streams that watch for tasks

`rpc/task-hub.ts` and the `watchTasks` generator of `rpc/machine-service.ts`. A daemon holds one
stream. The stream asks the database for pending tasks, and then waits until somebody wakes its
subscription, a timer fires, or one of two signals aborts. JavaScript runs one synchronous section
at a time; a generator stands still at its yields and at `await`, and anything may happen there.

**Wake-ups.** `dirty` keeps a wake that arrives while the stream does not wait. A wait that finds
it returns at once; one that does not has installed its callback before anybody else runs.

**Settling.** The callback, the timer and the abort listener all settle the promise of a wait, and
each removes the other two, so that what is left of an old wait never touches a new one.

**Replacement.** The hub has one subscription for a machine. Whatever leaves the hub is aborted.

Main result: `wakes_not_lost`.
-/

namespace Bifurcation.Panel.Watch

/-- Why a signal aborted. -/
inductive Reason where
  | replaced
  | closed
  | revoked
  | shuttingDown
  /-- The signal of the request. -/
  | request
deriving DecidableEq

inductive Outcome where
  | resolved
  | rejected (reason : Reason)
deriving DecidableEq

/-- The promise of a wait, its timer, and its listener on the combined signal. -/
structure Wait where
  timer : Bool := true
  listening : Bool := true
  outcome : Option Outcome := none
deriving DecidableEq

/-- A promise is settled once. -/
def Wait.settle (wait : Wait) (outcome : Outcome) : Wait :=
  { wait with outcome := some (wait.outcome.getD outcome) }

structure TaskSubscription where
  /-- The signal of `controller`. -/
  aborted : Option Reason := none
  dirty : Bool := false
  /-- The wait whose `finish` is `notify`. -/
  notify : Option ℕ := none
  waits : List Wait := []
deriving DecidableEq

namespace TaskSubscription

def cleanup (s : TaskSubscription) (k : ℕ) : TaskSubscription :=
  { s with
    notify := none
    waits := s.waits.modify k fun wait => { wait with timer := false, listening := false } }

/-- The callback of a wait. -/
def finish (s : TaskSubscription) (k : ℕ) : TaskSubscription :=
  let s := s.cleanup k
  { s with dirty := false, waits := s.waits.modify k (·.settle .resolved) }

/-- The abort listener of a wait. -/
def abortWait (s : TaskSubscription) (reason : Reason) (k : ℕ) : TaskSubscription :=
  let s := s.cleanup k
  { s with waits := s.waits.modify k (·.settle (.rejected reason)) }

def wake (s : TaskSubscription) : TaskSubscription :=
  let s := { s with dirty := true }
  match s.notify with
  | none => s
  | some k => s.finish k

def Listens (s : TaskSubscription) (k : ℕ) : Prop := (s.waits[k]?).any Wait.listening = true

instance (s : TaskSubscription) (k : ℕ) : Decidable (s.Listens k) :=
  inferInstanceAs (Decidable (_ = true))

/-- A signal calls its listeners in turn. -/
def dispatch (s : TaskSubscription) (reason : Reason) : TaskSubscription :=
  (List.range s.waits.length).foldl
    (fun s k => if s.Listens k then s.abortWait reason k else s) s

/-- `controller.abort`. -/
def abort (s : TaskSubscription) (reason : Reason) : TaskSubscription :=
  match s.aborted with
  | some _ => s
  | none => { s with aborted := some reason }.dispatch reason

end TaskSubscription

/-- Where the generator stands. -/
inductive Phase where
  /-- At the yield of the session. -/
  | session
  | task
  | heartbeat
  /-- A wait has returned at once. -/
  | continuing
  | waiting (k : ℕ)
  | finished
deriving DecidableEq

def Phase.yielded : Phase → Bool
  | .session | .task | .heartbeat => true
  | _ => false

structure Stream where
  machine : String := ""
  phase : Phase := .finished
  /-- `context.signal.aborted`. -/
  disconnected : Bool := false
  /-- The machine was woken after the last query of the stream. -/
  stale : Bool := false
deriving DecidableEq

/-- The hub, and the streams with their subscriptions. -/
structure World where
  subscriptions : Table String ℕ := .empty
  stopping : Bool := false
  opened : ℕ := 0
  subs : ℕ → TaskSubscription := fun _ => {}
  streams : ℕ → Stream := fun _ => {}

/-- What a stream finds in one turn: its credentials and its session are valid, there is a task
that it has not announced, a heartbeat is due. -/
structure Answer where
  authenticated : Bool
  task : Bool
  heartbeat : Bool

inductive Event where
  /-- `watchTasks` is called. It may fail to bind the installation. -/
  | «open» (machine : String) (bound : Bool)
  /-- The response asks a stream for its next message. -/
  | next (i : ℕ) (answer : Answer)
  /-- The response ends at a yield. -/
  | stop (i : ℕ)
  /-- A stream continues after `await`. -/
  | resume (i : ℕ) (answer : Answer)
  | wake (machine : String)
  | timeout (i k : ℕ)
  /-- The signal of the request aborts. -/
  | disconnect (i : ℕ)
  | close (machine : String)
  | shutdown

namespace World

@[simps] def setSub (w : World) (i : ℕ) (s : TaskSubscription) : World :=
  { w with subs := Function.update w.subs i s }

@[simps] def setStream (w : World) (i : ℕ) (stream : Stream) : World :=
  { w with streams := Function.update w.streams i stream }

def move (w : World) (i : ℕ) (phase : Phase) : World :=
  w.setStream i { w.streams i with phase }

def unregister (w : World) (machine : String) : World :=
  { w with subscriptions := w.subscriptions.deleteWhere fun id _ => id = machine }

def close (w : World) (machine : String) (reason : Reason) : World :=
  match w.subscriptions.get? machine with
  | none => w
  | some i => (w.setSub i ((w.subs i).abort reason)).unregister machine

def release (w : World) (i : ℕ) : World :=
  let w := if w.subscriptions.get? (w.streams i).machine = some i then
      w.unregister (w.streams i).machine
    else w
  w.setSub i ((w.subs i).abort .closed)

def shutdown (w : World) : World :=
  w.subscriptions.rows.foldl (fun w x => w.close x.1 .shuttingDown) { w with stopping := true }

/-- The session of a stream begins. -/
def «open» (w : World) (machine : String) : World :=
  let w := w.close machine .replaced
  { (w.setSub w.opened {}).setStream w.opened { machine, phase := .session } with
    subscriptions := w.subscriptions.set machine w.opened
    opened := w.opened + 1 }

def wake (w : World) (machine : String) : World :=
  match w.subscriptions.get? machine with
  | none => w
  | some i =>
    (w.setSub i (w.subs i).wake).setStream i { w.streams i with stale := true }

/-- The `finally` block. -/
def ends (w : World) (i : ℕ) : World := (w.release i).move i .finished

/-- `wait`, up to its `await`. -/
def wait (w : World) (i : ℕ) : World :=
  let s := w.subs i
  if (w.streams i).disconnected = true ∨ s.aborted.isSome then w.ends i
  else if s.dirty then (w.setSub i { s with dirty := false }).move i .continuing
  else
    (w.setSub i { s with notify := some s.waits.length, waits := s.waits ++ [{}] }).move i
      (.waiting s.waits.length)

def beat (w : World) (i : ℕ) (answer : Answer) : World :=
  if answer.heartbeat then w.move i .heartbeat else w.wait i

/-- One turn of the loop, up to its first yield or wait. -/
def turn (w : World) (i : ℕ) (answer : Answer) : World :=
  if (w.streams i).disconnected = true ∨ (w.subs i).aborted.isSome then w.ends i
  else if answer.authenticated = false then w.ends i
  else
    -- The query: from here on a wake counts.
    let w := w.setStream i { w.streams i with stale := false }
    if answer.task then w.move i .task else w.beat i answer

def next (w : World) (i : ℕ) (answer : Answer) : World :=
  match (w.streams i).phase with
  | .session => w.turn i answer
  | .task => w.beat i answer
  | .heartbeat => w.wait i
  | _ => w

def resume (w : World) (i : ℕ) (answer : Answer) : World :=
  match (w.streams i).phase with
  | .continuing => w.turn i answer
  | .waiting k =>
    match ((w.subs i).waits[k]?).bind Wait.outcome with
    | none => w
    | some .resolved => w.turn i answer
    | some (.rejected _) => w.ends i
  | _ => w

def step (w : World) : Event → World
  | .open machine bound => if w.stopping = true ∨ bound = false then w else w.open machine
  | .next i answer => w.next i answer
  | .stop i => if (w.streams i).phase.yielded then w.ends i else w
  | .resume i answer => w.resume i answer
  | .wake machine => w.wake machine
  | .timeout i k =>
    if ((w.subs i).waits[k]?).any Wait.timer then w.setSub i ((w.subs i).finish k) else w
  | .disconnect i =>
    if (w.streams i).disconnected then w
    else (w.setSub i ((w.subs i).dispatch .request)).setStream i
      { w.streams i with disconnected := true }
  | .close machine => w.close machine .revoked
  | .shutdown => w.shutdown

/-- A stream stands at a wait that nothing has settled. -/
def Suspended (w : World) (i k : ℕ) : Prop :=
  (w.streams i).phase = .waiting k ∧
    ∃ wait, (w.subs i).waits[k]? = some wait ∧ wait.outcome = none

/-- How a wait was settled. -/
def outcome (w : World) (i k : ℕ) : Option Outcome := ((w.subs i).waits[k]?).bind Wait.outcome

/-- A turn of the loop asks the database for pending tasks. -/
def Asks (w : World) (i : ℕ) (answer : Answer) : Prop :=
  (w.streams i).disconnected = false ∧ (w.subs i).aborted = none ∧ answer.authenticated = true

/-- A step in which a stream asks the database for pending tasks. -/
def Queries (w : World) (i : ℕ) : Event → Prop
  | .next j answer => i = j ∧ (w.streams i).phase = .session ∧ w.Asks i answer
  | .resume j answer => i = j ∧ w.Asks i answer ∧ ((w.streams i).phase = .continuing ∨
      ∃ k, (w.streams i).phase = .waiting k ∧ w.outcome i k = some .resolved)
  | _ => False

end World

/-- The worlds that events lead to. -/
inductive Reachable : World → Prop where
  | start : Reachable {}
  | step {w : World} (e : Event) (h : Reachable w) : Reachable (w.step e)

/-- Events lead from one world to another, and a stream does not query meanwhile. -/
inductive Unqueried (i : ℕ) (w : World) : World → Prop where
  | refl : Unqueried i w w
  | step {w' : World} (e : Event) (h : Unqueried i w w') (hq : ¬ w'.Queries i e) :
    Unqueried i w (w'.step e)

/-! ## One subscription -/

/-- Nothing is left of a wait that could settle it or a later one. -/
structure Wait.Spent (wait : Wait) : Prop where
  timer : wait.timer = false
  listening : wait.listening = false
  settled : wait.outcome ≠ none

/-- How a subscription fits its stream. -/
structure Fits (s : TaskSubscription) (stream : Stream) : Prop where
  spent : ∀ k wait, s.waits[k]? = some wait → s.notify ≠ some k → wait.Spent
  armed : ∀ k, s.notify = some k → stream.phase = .waiting k ∧ s.waits[k]? = some {} ∧
    s.aborted = none ∧ stream.disconnected = false ∧ stream.stale = false
  begun : ∀ k, stream.phase = .waiting k → k < s.waits.length
  dirty : stream.phase.yielded = true → stream.stale = true → s.dirty = true

namespace TaskSubscription

variable {s : TaskSubscription} {stream : Stream} {k : ℕ}

theorem finish_waits (h : s.waits[k]? = some {}) (j : ℕ) :
    (s.finish k).waits[j]? =
      if j = k then some ⟨false, false, some .resolved⟩ else s.waits[j]? := by
  by_cases hj : j = k
  · subst hj
    simp [finish, cleanup, Wait.settle, h]
  · simp [finish, cleanup, hj, Ne.symm hj]

theorem abortWait_waits (reason : Reason) (h : s.waits[k]? = some {}) (j : ℕ) :
    (s.abortWait reason k).waits[j]? =
      if j = k then some ⟨false, false, some (.rejected reason)⟩ else s.waits[j]? := by
  by_cases hj : j = k
  · subst hj
    simp [abortWait, cleanup, Wait.settle, h]
  · simp [abortWait, cleanup, hj, Ne.symm hj]

theorem foldl_of_deaf (reason : Reason) (ks : List ℕ) (h : ∀ k ∈ ks, ¬ s.Listens k) :
    ks.foldl (fun s k => if s.Listens k then s.abortWait reason k else s) s = s := by
  induction ks with
  | nil => rfl
  | cons k ks ih =>
    rw [List.foldl_cons, if_neg (h k List.mem_cons_self)]
    exact ih fun j hj => h j (List.mem_cons_of_mem k hj)

/-- A signal without listeners. -/
theorem dispatch_of_deaf (reason : Reason) (h : ∀ k, ¬ s.Listens k) : s.dispatch reason = s :=
  foldl_of_deaf reason _ fun k _ => h k

/-- A signal with one listener. -/
theorem dispatch_of_listens (reason : Reason) (hk : s.waits[k]? = some {})
    (h : ∀ j, j ≠ k → ¬ s.Listens j) : s.dispatch reason = s.abortWait reason k := by
  have hlt : k < s.waits.length := (List.getElem?_eq_some_iff.1 hk).1
  obtain ⟨before, after, hsplit⟩ := List.append_of_mem (List.mem_range.2 hlt)
  have hnodup : (before ++ k :: after).Nodup := hsplit ▸ List.nodup_range
  have hbefore : ∀ j ∈ before, j ≠ k := fun j hj e =>
    List.disjoint_of_nodup_append hnodup hj (e ▸ List.mem_cons_self)
  have hlistens : s.Listens k := by simp [Listens, hk]
  unfold dispatch
  rw [hsplit, List.foldl_append, foldl_of_deaf reason before fun j hj => h j (hbefore j hj),
    List.foldl_cons, if_pos hlistens]
  apply foldl_of_deaf
  -- The listener has removed itself, and the others are as before.
  intro j _ hj
  unfold Listens at hj
  rw [abortWait_waits reason hk] at hj
  split_ifs at hj with e
  · simp at hj
  · exact h j e hj

end TaskSubscription

namespace Fits

variable {s : TaskSubscription} {stream : Stream} {k : ℕ}

theorem deaf (h : Fits s stream) {j : ℕ} (hj : s.notify ≠ some j) : ¬ s.Listens j := by
  intro hl
  unfold TaskSubscription.Listens at hl
  cases hw : s.waits[j]? with
  | none => simp [hw] at hl
  | some wait => simp [hw, (h.spent j wait hw hj).listening] at hl

/-- A settled wait, or none. -/
theorem of_spent (hnotify : s.notify = none)
    (hspent : ∀ (k : ℕ) (wait : Wait), s.waits[k]? = some wait → wait.Spent)
    (hbegun : ∀ k, stream.phase = .waiting k → k < s.waits.length)
    (hdirty : stream.phase.yielded = true → stream.stale = true → s.dirty = true) :
    Fits s stream where
  spent k wait hw _ := hspent k wait hw
  armed k hk := by rw [hnotify] at hk; cases hk
  begun := hbegun
  dirty := hdirty

theorem all_spent (h : Fits s stream) (hnotify : s.notify = none) (k : ℕ) (wait : Wait)
    (hw : s.waits[k]? = some wait) : wait.Spent :=
  h.spent k wait hw (by simp [hnotify])

/-- The callback of the wait at which the stream stands. -/
theorem finish (h : Fits s stream) (hk : s.notify = some k) (stale : Bool) :
    Fits (s.finish k) { stream with stale } := by
  obtain ⟨hphase, hwait, -⟩ := h.armed k hk
  refine of_spent rfl (fun j wait hw => ?_) (fun j hj => ?_) fun hy => ?_
  · rw [TaskSubscription.finish_waits hwait] at hw
    split_ifs at hw with e
    · cases hw
      exact ⟨rfl, rfl, nofun⟩
    · exact h.spent j wait hw fun he => e (Option.some.inj (he.symm.trans hk))
  · simpa [TaskSubscription.finish, TaskSubscription.cleanup] using h.begun j hj
  · simp only [hphase] at hy
    cases hy

theorem abortWait (h : Fits s stream) (hk : s.notify = some k) (reason : Reason)
    (disconnected : Bool) (aborted : Option Reason) :
    Fits { s.abortWait reason k with aborted } { stream with disconnected } := by
  obtain ⟨hphase, hwait, -⟩ := h.armed k hk
  refine of_spent rfl (fun j wait hw => ?_) (fun j hj => ?_) fun hy => ?_
  · replace hw : (s.abortWait reason k).waits[j]? = some wait := hw
    rw [TaskSubscription.abortWait_waits reason hwait] at hw
    split_ifs at hw with e
    · cases hw
      exact ⟨rfl, rfl, nofun⟩
    · exact h.spent j wait hw fun he => e (Option.some.inj (he.symm.trans hk))
  · simpa [TaskSubscription.abortWait, TaskSubscription.cleanup] using h.begun j hj
  · simp only [hphase] at hy
    cases hy

/-- The signals reach the wait at which the stream stands, and no other. -/
theorem dispatch_eq (h : Fits s stream) (reason : Reason) (aborted : Option Reason) :
    { s with aborted }.dispatch reason =
      match s.notify with
      | none => { s with aborted }
      | some k => { s.abortWait reason k with aborted } := by
  split
  next hn => exact TaskSubscription.dispatch_of_deaf reason fun k => h.deaf (by simp [hn])
  next k hn =>
    refine TaskSubscription.dispatch_of_listens (s := { s with aborted }) reason
      (h.armed k hn).2.1 fun j hj => h.deaf fun e => hj ?_
    exact Option.some.inj (e.symm.trans hn)

theorem dispatch (h : Fits s stream) (reason : Reason) (aborted : Option Reason)
    (disconnected : Bool) :
    Fits ({ s with aborted }.dispatch reason) { stream with disconnected } := by
  rw [h.dispatch_eq reason aborted]
  split
  next hn => exact of_spent hn (h.all_spent hn) h.begun h.dirty
  next k hn => exact h.abortWait hn reason disconnected aborted

theorem abort (h : Fits s stream) (reason : Reason) : Fits (s.abort reason) stream := by
  unfold TaskSubscription.abort
  split
  · exact h
  · exact h.dispatch reason (some reason) stream.disconnected

theorem wake (h : Fits s stream) : Fits s.wake { stream with stale := true } := by
  unfold TaskSubscription.wake
  dsimp only
  split
  next hn => exact of_spent hn (h.all_spent hn) h.begun fun _ _ => rfl
  next k hn => exact h.finish hn true

theorem timeout (h : Fits s stream) (hk : (s.waits[k]?).any Wait.timer = true) :
    Fits (s.finish k) stream := by
  refine h.finish (by_contra fun hn => ?_) stream.stale
  cases hw : s.waits[k]? with
  | none => simp [hw] at hk
  | some wait => simp [hw, (h.spent k wait hw hn).timer] at hk

/-- A stream that stands at no open wait goes on. -/
theorem move (h : Fits s stream) (hnotify : s.notify = none) {phase : Phase} {stale : Bool}
    (hphase : ∀ k, phase ≠ .waiting k)
    (hdirty : phase.yielded = true → stale = true → s.dirty = true) :
    Fits s { stream with phase, stale } :=
  of_spent hnotify (h.all_spent hnotify) (fun k hk => absurd hk (hphase k)) hdirty

/-- A wait begins, and a wake that comes after the last query would have been found. -/
theorem install (h : Fits s stream) (hdisconnected : stream.disconnected = false)
    (haborted : s.aborted = none) (hstale : stream.stale = false) (hnotify : s.notify = none) :
    Fits { s with notify := some s.waits.length, waits := s.waits ++ [{}] }
      { stream with phase := .waiting s.waits.length } where
  spent k wait hw hk := by
    have hne : k ≠ s.waits.length := by
      rintro rfl
      exact hk rfl
    have hlt : k < s.waits.length := by
      have := (List.getElem?_eq_some_iff.1 hw).1
      simp only [List.length_append, List.length_singleton] at this
      omega
    rw [List.getElem?_append_left hlt] at hw
    exact h.all_spent hnotify k wait hw
  armed k hk := by
    cases hk
    exact ⟨rfl, by simp, haborted, hdisconnected, hstale⟩
  begun k hk := by
    cases hk
    simp
  dirty := nofun

end Fits

theorem Fits.aborted_dispatch {s : TaskSubscription} {stream : Stream} (h : Fits s stream)
    (reason : Reason) (aborted : Option Reason) :
    ({ s with aborted }.dispatch reason).aborted = aborted := by
  rw [h.dispatch_eq reason aborted]
  split <;> rfl

theorem Fits.aborted_abort {s : TaskSubscription} {stream : Stream} (h : Fits s stream)
    (reason : Reason) : (s.abort reason).aborted.isSome = true := by
  unfold TaskSubscription.abort
  split
  next ha => simp [ha]
  next => simp [h.aborted_dispatch reason (some reason)]

theorem Fits.notify_of_aborted {s : TaskSubscription} {stream : Stream} (h : Fits s stream)
    (ha : s.aborted.isSome = true) : s.notify = none := by
  cases hn : s.notify with
  | none => rfl
  | some k => simp [(h.armed k hn).2.2.1] at ha

theorem aborted_wake (s : TaskSubscription) : s.wake.aborted = s.aborted := by
  unfold TaskSubscription.wake
  dsimp only
  split <;> rfl

/-! ## The hub -/

/-- Every subscription fits its stream, the hub has a subscription for a machine only while it is
open, and every other one is aborted. -/
structure Inv (w : World) : Prop where
  fits : ∀ i, Fits (w.subs i) (w.streams i)
  fresh : ∀ i, w.opened ≤ i → (w.streams i).phase = .finished
  registered : ∀ {machine i}, w.subscriptions.get? machine = some i →
    i < w.opened ∧ (w.streams i).machine = machine ∧ (w.subs i).aborted = none
  superseded : ∀ i, i < w.opened → w.subscriptions.get? (w.streams i).machine ≠ some i →
    (w.subs i).aborted.isSome = true
  stopped : w.stopping = true → w.subscriptions.rows = []

theorem inv_start : Inv {} where
  fits _ := Fits.of_spent rfl (fun _ _ h => by cases h) (fun _ h => by cases h) fun h _ => by
    cases h
  fresh _ _ := rfl
  registered h := by cases h
  superseded _ h := by cases h
  stopped h := by cases h

namespace Inv

variable {w : World} {i : ℕ}

/-- A stream moves, and neither the hub nor a controller does. -/
theorem put (h : Inv w) {s : TaskSubscription} {stream : Stream} (hfits : Fits s stream)
    (hmachine : stream.machine = (w.streams i).machine)
    (haborted : s.aborted = (w.subs i).aborted)
    (hphase : w.opened ≤ i → stream.phase = .finished) :
    Inv ((w.setSub i s).setStream i stream) := by
  have hmachines : ∀ j, (Function.update w.streams i stream j).machine = (w.streams j).machine :=
    fun j => by by_cases hj : j = i <;> simp [hj, hmachine]
  have hcontrollers : ∀ j, (Function.update w.subs i s j).aborted = (w.subs j).aborted :=
    fun j => by by_cases hj : j = i <;> simp [hj, haborted]
  constructor
  case fits =>
    intro j
    by_cases hj : j = i
    · subst hj
      simpa using hfits
    · simpa [hj] using h.fits j
  case fresh =>
    intro j hj
    by_cases hji : j = i
    · subst hji
      simpa using hphase hj
    · simpa [hji] using h.fresh j hj
  case registered =>
    intro machine j hj
    obtain ⟨hlt, hm, ha⟩ := h.registered hj
    exact ⟨hlt, (hmachines j).trans hm, (hcontrollers j).trans ha⟩
  case superseded =>
    intro j hlt hj
    have hj' : w.subscriptions.get? (w.streams j).machine ≠ some j := by
      rw [← hmachines j]
      exact hj
    exact (congrArg Option.isSome (hcontrollers j)).trans (h.superseded j hlt hj')
  case stopped => exact h.stopped

theorem setSub (h : Inv w) {s : TaskSubscription} (hfits : Fits s (w.streams i))
    (haborted : s.aborted = (w.subs i).aborted) : Inv (w.setSub i s) := by
  have := h.put hfits rfl haborted (h.fresh i)
  rwa [World.setStream, World.setSub, Function.update_eq_self] at this

theorem setStream (h : Inv w) {stream : Stream} (hfits : Fits (w.subs i) stream)
    (hmachine : stream.machine = (w.streams i).machine)
    (hphase : w.opened ≤ i → stream.phase = .finished) : Inv (w.setStream i stream) := by
  have := h.put hfits hmachine rfl hphase
  rwa [World.setSub, Function.update_eq_self] at this

/-- A subscription leaves the hub, or is not there, and is aborted. -/
theorem discard (h : Inv w) (reason : Reason) {subscriptions : Table String ℕ}
    (hsubs : ∀ machine, subscriptions.get? machine =
      (w.subscriptions.get? machine).filter fun j => j ≠ i)
    (hrows : w.subscriptions.rows = [] → subscriptions.rows = []) :
    Inv { w.setSub i ((w.subs i).abort reason) with subscriptions } := by
  constructor
  case fits =>
    intro j
    by_cases hj : j = i
    · subst hj
      simpa using (h.fits j).abort reason
    · simpa [hj] using h.fits j
  case fresh => exact h.fresh
  case registered =>
    intro machine j hj
    replace hj : subscriptions.get? machine = some j := hj
    rw [hsubs, Option.filter_eq_some_iff] at hj
    obtain ⟨hlt, hm, ha⟩ := h.registered hj.1
    have hne : j ≠ i := by simpa using hj.2
    exact ⟨hlt, hm, by simpa [hne] using ha⟩
  case superseded =>
    intro j hlt hj
    by_cases hji : j = i
    · subst hji
      simpa using (h.fits j).aborted_abort reason
    · have hj' : w.subscriptions.get? (w.streams j).machine ≠ some j := by
        intro e
        apply hj
        show subscriptions.get? _ = _
        rw [hsubs]
        exact Option.filter_eq_some_iff.2 ⟨e, by simpa using hji⟩
      simpa [hji] using h.superseded j hlt hj'
  case stopped => exact fun hs => hrows (h.stopped hs)

theorem get?_unregister (h : Inv w) {machine : String}
    (hi : w.subscriptions.get? machine = some i) (id : String) :
    (w.unregister machine).subscriptions.get? id =
      (w.subscriptions.get? id).filter fun j => j ≠ i := by
  unfold World.unregister
  rw [Table.get?_deleteWhere]
  apply Option.ext
  intro j
  simp only [Option.filter_eq_some_iff]
  apply and_congr_right
  intro hj
  have hm := (h.registered hi).2.1
  have hm' := (h.registered hj).2.1
  by_cases e : j = i
  · subst e
    simp [← hm, ← hm']
  · have hne : id ≠ machine := by
      rintro rfl
      exact e (Option.some.inj (hj.symm.trans hi))
    simp [e, hne]

theorem rows_unregister {machine : String} (hrows : w.subscriptions.rows = []) :
    (w.unregister machine).subscriptions.rows = [] := by
  simp [World.unregister, Table.deleteWhere, hrows]

theorem close (h : Inv w) (machine : String) (reason : Reason) : Inv (w.close machine reason) := by
  unfold World.close
  split
  · exact h
  next hi => exact h.discard reason (h.get?_unregister hi) rows_unregister

theorem release (h : Inv w) (i : ℕ) : Inv (w.release i) := by
  unfold World.release
  split_ifs with hi
  · exact h.discard .closed (h.get?_unregister hi) rows_unregister
  · refine h.discard .closed (fun machine => ?_) id
    have hne : w.subscriptions.get? machine ≠ some i := by
      intro e
      rw [(h.registered e).2.1] at hi
      exact hi e
    cases hj : w.subscriptions.get? machine with
    | none => rfl
    | some j =>
      have hji : j ≠ i := by
        rintro rfl
        exact hne hj
      simp [Option.filter, hji]

/-- A new subscription for a machine that has none. -/
theorem register (h : Inv w) {machine : String} (hnone : w.subscriptions.get? machine = none)
    (hs : w.stopping = false) :
    Inv { (w.setSub w.opened {}).setStream w.opened { machine, phase := .session } with
      subscriptions := w.subscriptions.set machine w.opened
      opened := w.opened + 1 } := by
  have hold : ∀ {id j}, w.subscriptions.get? id = some j → j ≠ w.opened := fun hj =>
    (h.registered hj).1.ne
  constructor
  case fits =>
    intro j
    by_cases hj : j = w.opened
    · subst hj
      simpa using
        Fits.of_spent rfl (fun _ _ h => by cases h) (fun _ h => by cases h) fun _ h => by cases h
    · simpa [hj] using h.fits j
  case fresh =>
    intro j hj
    have hne : j ≠ w.opened := (Nat.lt_of_succ_le hj).ne'
    simpa [hne] using h.fresh j (Nat.le_of_succ_le hj)
  case registered =>
    intro id j hj
    replace hj : (w.subscriptions.set machine w.opened).get? id = some j := hj
    rw [Table.get?_set] at hj
    split_ifs at hj with hid
    · cases hj
      exact ⟨Nat.lt_succ_self _, by simp [hid], by simp⟩
    · obtain ⟨hlt, hm, ha⟩ := h.registered hj
      have hne := hold hj
      exact ⟨Nat.lt_succ_of_lt hlt, by simpa [hne] using hm,
        by simpa [hne] using ha⟩
  case superseded =>
    intro j hlt hj
    by_cases hjo : j = w.opened
    · subst hjo
      exact absurd (by simp) hj
    · have hj' : w.subscriptions.get? (w.streams j).machine ≠ some j := by
        intro e
        apply hj
        have hid : (w.streams j).machine ≠ machine := by
          rintro hid
          rw [hid, hnone] at e
          cases e
        simpa [hjo, Table.get?_set_of_ne _ _ hid] using e
      have hlt' : j < w.opened := lt_of_le_of_ne (Nat.le_of_lt_succ hlt) hjo
      simpa [hjo] using h.superseded j hlt' hj'
  case stopped =>
    intro e
    cases hs.symm.trans e

end Inv

namespace World

variable (w : World) (machine : String) (reason : Reason)

@[simp] theorem opened_close : (w.close machine reason).opened = w.opened := by
  unfold close
  split <;> rfl

@[simp] theorem stopping_close : (w.close machine reason).stopping = w.stopping := by
  unfold close
  split <;> rfl

@[simp] theorem streams_close : (w.close machine reason).streams = w.streams := by
  unfold close
  split <;> rfl

theorem get?_close (id : String) :
    (w.close machine reason).subscriptions.get? id =
      if id = machine then none else w.subscriptions.get? id := by
  unfold close
  split
  next hn =>
    split_ifs with hid
    · rw [hid, hn]
    · rfl
  next k hk =>
    simp only [unregister, Table.get?_deleteWhere, setSub_subscriptions]
    by_cases hid : id = machine
    · simp [hid, hk]
    · cases w.subscriptions.get? id <;> simp [hid]

end World

namespace Inv

variable {w : World} {i : ℕ}

theorem «open» (h : Inv w) (machine : String) (hs : w.stopping = false) :
    Inv (w.open machine) := by
  unfold World.open
  apply (h.close machine .replaced).register
  · rw [World.get?_close, if_pos rfl]
  · rw [World.stopping_close, hs]

theorem stop (h : Inv w) (hrows : w.subscriptions.rows = []) :
    Inv { w with stopping := true } :=
  ⟨h.fits, h.fresh, h.registered, h.superseded, fun _ => hrows⟩

end Inv

/-! ## Shutdown -/

namespace World

/-- `close` for one machine after the other. -/
def closes (w : World) (machines : List String) : World :=
  machines.foldl (fun w machine => w.close machine .shuttingDown) w

theorem close_stop (w : World) (machine : String) (reason : Reason) :
    { w with stopping := true }.close machine reason =
      { w.close machine reason with stopping := true } := by
  unfold close
  dsimp only
  split <;> rfl

theorem shutdown_eq (w : World) :
    w.shutdown = { w.closes (w.subscriptions.rows.map Prod.fst) with stopping := true } := by
  unfold shutdown closes
  rw [List.foldl_map]
  generalize w.subscriptions.rows = rows
  induction rows generalizing w with
  | nil => rfl
  | cons x rows ih => rw [List.foldl_cons, List.foldl_cons, close_stop, ih]

theorem get?_closes (machines : List String) (w : World) (id : String) :
    (w.closes machines).subscriptions.get? id =
      if id ∈ machines then none else w.subscriptions.get? id := by
  unfold closes
  induction machines generalizing w with
  | nil => simp
  | cons machine machines ih =>
    rw [List.foldl_cons, ih, get?_close]
    by_cases hid : id = machine <;> simp [hid]

theorem rows_closes (w : World) :
    (w.closes (w.subscriptions.rows.map Prod.fst)).subscriptions.rows = [] := by
  apply List.eq_nil_iff_forall_not_mem.2
  rintro ⟨id, i⟩ hmem
  have hget := Table.get?_of_mem hmem
  rw [get?_closes] at hget
  split_ifs at hget with hid
  exact hid (List.mem_map.2 ⟨_, Table.mem_rows_iff.2 hget, rfl⟩)

end World

theorem Inv.closes {w : World} (h : Inv w) (machines : List String) : Inv (w.closes machines) := by
  unfold World.closes
  induction machines generalizing w with
  | nil => exact h
  | cons machine machines ih => exact ih (h.close machine .shuttingDown)

theorem Inv.shutdown {w : World} (h : Inv w) : Inv w.shutdown := by
  rw [World.shutdown_eq]
  exact (h.closes _).stop w.rows_closes

namespace World

@[simp] theorem streams_shutdown (w : World) : w.shutdown.streams = w.streams := by
  rw [shutdown_eq]
  show (w.closes _).streams = w.streams
  unfold closes
  generalize w.subscriptions.rows.map Prod.fst = machines
  induction machines generalizing w with
  | nil => rfl
  | cons machine machines ih => rw [List.foldl_cons, ih, streams_close]

@[simp] theorem opened_shutdown (w : World) : w.shutdown.opened = w.opened := by
  rw [shutdown_eq]
  show (w.closes _).opened = w.opened
  unfold closes
  generalize w.subscriptions.rows.map Prod.fst = machines
  induction machines generalizing w with
  | nil => rfl
  | cons machine machines ih => rw [List.foldl_cons, ih, opened_close]

end World

/-! ## The stream -/

namespace Inv

variable {w : World} {i : ℕ} {answer : Answer}

theorem subs_release (w : World) (i : ℕ) :
    (w.release i).subs i = (w.subs i).abort .closed := by
  unfold World.release
  split_ifs <;> simp [World.unregister]

theorem ends (h : Inv w) (i : ℕ) : Inv (w.ends i) := by
  have h' := h.release i
  have hn : ((w.release i).subs i).notify = none := by
    apply (h'.fits i).notify_of_aborted
    rw [subs_release]
    exact (h.fits i).aborted_abort .closed
  exact h'.setStream ((h'.fits i).move hn nofun nofun) rfl fun _ => rfl

/-- A stream that has no open wait goes to a yield. -/
theorem move (h : Inv w) (hn : (w.subs i).notify = none) (hi : i < w.opened) {phase : Phase}
    (hphase : ∀ k, phase ≠ .waiting k)
    (hdirty : (w.streams i).stale = true → (w.subs i).dirty = true) : Inv (w.move i phase) :=
  h.setStream ((h.fits i).move hn hphase fun _ => hdirty) rfl fun hle => absurd hi hle.not_gt

theorem wait (h : Inv w) (hn : (w.subs i).notify = none) (hi : i < w.opened)
    (hdirty : (w.streams i).stale = true → (w.subs i).dirty = true) : Inv (w.wait i) := by
  have hlater : ∀ {P : Prop}, w.opened ≤ i → P := fun hle => absurd hi hle.not_gt
  unfold World.wait
  dsimp only
  split_ifs with habort hd
  · exact h.ends i
  · -- The wait returns at once.
    exact h.put (Fits.of_spent hn ((h.fits i).all_spent hn) nofun nofun) rfl rfl hlater
  · -- The callback is installed.
    rw [not_or] at habort
    refine h.put ((h.fits i).install (by simpa using habort.1) (by simpa using habort.2) ?_ hn)
      rfl rfl hlater
    exact Bool.eq_false_iff.2 fun hs => hd (hdirty hs)

theorem beat (h : Inv w) (hn : (w.subs i).notify = none) (hi : i < w.opened)
    (hdirty : (w.streams i).stale = true → (w.subs i).dirty = true) :
    Inv (w.beat i answer) := by
  unfold World.beat
  split_ifs
  · exact h.move hn hi nofun hdirty
  · exact h.wait hn hi hdirty

theorem turn (h : Inv w) (hn : (w.subs i).notify = none) (hi : i < w.opened) :
    Inv (w.turn i answer) := by
  have hlater : ∀ {P : Prop}, w.opened ≤ i → P := fun hle => absurd hi hle.not_gt
  unfold World.turn
  dsimp only
  split_ifs
  · exact h.ends i
  · exact h.ends i
  all_goals
    have h' : Inv (w.setStream i { w.streams i with stale := false }) :=
      h.setStream (Fits.of_spent hn ((h.fits i).all_spent hn) (h.fits i).begun nofun) rfl hlater
    have hdirty : ((w.setStream i { w.streams i with stale := false }).streams i).stale = true →
        (w.subs i).dirty = true := by simp
  · exact h'.move hn hi nofun hdirty
  · exact h'.beat hn hi hdirty

theorem opened_of_phase (h : Inv w) (hphase : (w.streams i).phase ≠ .finished) : i < w.opened :=
  Nat.lt_of_not_le fun hle => hphase (h.fresh i hle)

/-- No wait is open unless the stream stands at it. -/
theorem notify_of_phase (h : Inv w) (hphase : ∀ k, (w.streams i).phase ≠ .waiting k) :
    (w.subs i).notify = none := by
  cases hn : (w.subs i).notify with
  | none => rfl
  | some k => exact absurd ((h.fits i).armed k hn).1 (hphase k)

theorem next (h : Inv w) : Inv (w.next i answer) := by
  unfold World.next
  split
  case h_4 => exact h
  all_goals
    next hphase =>
    have hn : (w.subs i).notify = none := h.notify_of_phase (by simp [hphase])
    have hi : i < w.opened := h.opened_of_phase (by simp [hphase])
    have hdirty := (h.fits i).dirty (by rw [hphase]; rfl)
    first
      | exact h.turn hn hi
      | exact h.beat hn hi hdirty
      | exact h.wait hn hi hdirty

theorem resume (h : Inv w) : Inv (w.resume i answer) := by
  unfold World.resume
  split
  next hphase =>
    exact h.turn (h.notify_of_phase (by simp [hphase])) (h.opened_of_phase (by simp [hphase]))
  next k hphase =>
    have hi : i < w.opened := h.opened_of_phase (by simp [hphase])
    split
    · exact h
    next hsettled =>
      refine h.turn ?_ hi
      cases hn : (w.subs i).notify with
      | none => rfl
      | some j =>
        obtain ⟨hj, hwait, -⟩ := (h.fits i).armed j hn
        cases hphase.symm.trans hj
        simp [hwait] at hsettled
    · exact h.ends i
  · exact h

/-- What one step preserves. -/
theorem step (h : Inv w) (e : Event) : Inv (w.step e) := by
  cases e with
  | «open» machine bound =>
    simp only [World.step]
    split_ifs with hs
    · exact h
    · rw [not_or] at hs
      exact h.open machine (by simpa using hs.1)
  | next i answer => exact h.next
  | stop i =>
    simp only [World.step]
    split_ifs
    · exact h.ends i
    · exact h
  | resume i answer => exact h.resume
  | wake machine =>
    simp only [World.step, World.wake]
    split
    · exact h
    next i hi =>
      exact h.put (h.fits i).wake rfl (aborted_wake _) fun hle =>
        absurd (h.registered hi).1 hle.not_gt
  | timeout i k =>
    simp only [World.step]
    split_ifs with ht
    · exact h.setSub ((h.fits i).timeout ht) rfl
    · exact h
  | disconnect i =>
    simp only [World.step]
    split_ifs
    · exact h
    · exact h.put ((h.fits i).dispatch .request _ true) rfl
        ((h.fits i).aborted_dispatch .request _) (h.fresh i)
  | close machine => exact h.close machine .revoked
  | shutdown => exact h.shutdown

end Inv

theorem Reachable.inv {w : World} (h : Reachable w) : Inv w := by
  induction h with
  | start => exact inv_start
  | step e _ ih => exact ih.step e

/-! ## What becomes of a wait -/

theorem Fits.outcome_abort {s : TaskSubscription} {stream : Stream} {k : ℕ} {o : Outcome}
    (h : Fits s stream) (reason : Reason) (ho : (s.waits[k]?).bind Wait.outcome = some o) :
    ((s.abort reason).waits[k]?).bind Wait.outcome = some o := by
  unfold TaskSubscription.abort
  split
  · exact ho
  · rw [h.dispatch_eq reason (some reason)]
    split
    · exact ho
    next j hj =>
      have hwait := (h.armed j hj).2.1
      show ((s.abortWait reason j).waits[k]?).bind Wait.outcome = some o
      rw [TaskSubscription.abortWait_waits reason hwait]
      split_ifs with hk
      · simp [hk, hwait] at ho
      · exact ho

theorem Fits.outcome_abort_armed {s : TaskSubscription} {stream : Stream} {k : ℕ}
    (h : Fits s stream) (reason : Reason) (hk : s.notify = some k) :
    ((s.abort reason).waits[k]?).bind Wait.outcome = some (.rejected reason) := by
  obtain ⟨-, hwait, haborted, -⟩ := h.armed k hk
  unfold TaskSubscription.abort
  rw [haborted]
  dsimp only
  rw [h.dispatch_eq reason (some reason), hk]
  show ((s.abortWait reason k).waits[k]?).bind Wait.outcome = _
  rw [TaskSubscription.abortWait_waits reason hwait, if_pos rfl]
  rfl

namespace Inv

variable {w : World} {i k : ℕ}

theorem notify_of_suspended (h : Inv w) (hk : w.Suspended i k) :
    (w.subs i).notify = some k := by
  obtain ⟨-, wait, hwait, hopen⟩ := hk
  exact by_contra fun hn => ((h.fits i).spent k wait hwait hn).settled hopen

/-- A stream that stands at an open wait has the subscription of its machine. -/
theorem registered_of_suspended (h : Inv w) (hk : w.Suspended i k) :
    w.subscriptions.get? (w.streams i).machine = some i := by
  have haborted := ((h.fits i).armed k (h.notify_of_suspended hk)).2.2.1
  have hi : i < w.opened := h.opened_of_phase (by simp [hk.1])
  by_contra hne
  have := h.superseded i hi hne
  simp [haborted] at this

theorem outcome_close (h : Inv w) (machine : String) (reason : Reason) {o : Outcome}
    (ho : w.outcome i k = some o) : (w.close machine reason).outcome i k = some o := by
  unfold World.close
  split
  · exact ho
  next j hj =>
    by_cases hij : i = j
    · subst hij
      simpa [World.outcome, World.unregister] using (h.fits i).outcome_abort reason ho
    · simpa [World.outcome, World.unregister, hij] using ho

theorem outcome_close_registered (h : Inv w) {machine : String} (reason : Reason)
    (hi : w.subscriptions.get? machine = some i) (hk : w.Suspended i k) :
    (w.close machine reason).outcome i k = some (.rejected reason) := by
  have hsettled := (h.fits i).outcome_abort_armed reason (h.notify_of_suspended hk)
  unfold World.close
  rw [hi]
  simpa [World.outcome, World.unregister] using hsettled

theorem suspended_close_of_ne {machine : String} (reason : Reason)
    (hi : w.subscriptions.get? machine ≠ some i) (hk : w.Suspended i k) :
    (w.close machine reason).Suspended i k := by
  refine ⟨by rw [World.streams_close]; exact hk.1, ?_⟩
  unfold World.close
  split
  · exact hk.2
  next j hj =>
    have hij : i ≠ j := by
      rintro rfl
      exact hi hj
    simpa [World.unregister, hij] using hk.2

theorem outcome_closes (machines : List String) (h : Inv w) {o : Outcome}
    (ho : w.outcome i k = some o) : (w.closes machines).outcome i k = some o := by
  unfold World.closes
  induction machines generalizing w with
  | nil => exact ho
  | cons machine machines ih =>
    exact ih (h.close machine .shuttingDown) (h.outcome_close machine .shuttingDown ho)

theorem outcome_closes_suspended (machines : List String) (h : Inv w)
    (hmem : (w.streams i).machine ∈ machines) (hk : w.Suspended i k) :
    (w.closes machines).outcome i k = some (.rejected .shuttingDown) := by
  induction machines generalizing w with
  | nil => cases hmem
  | cons machine machines ih =>
    have h' := h.close machine .shuttingDown
    by_cases hm : (w.streams i).machine = machine
    · refine outcome_closes machines h' (h.outcome_close_registered .shuttingDown ?_ hk)
      rw [← hm]
      exact h.registered_of_suspended hk
    · refine ih h' ?_ (suspended_close_of_ne .shuttingDown ?_ hk)
      · rw [World.streams_close]
        exact (List.mem_cons.1 hmem).resolve_left hm
      · exact fun e => hm (h.registered e).2.1

theorem outcome_shutdown (h : Inv w) (hk : w.Suspended i k) :
    w.shutdown.outcome i k = some (.rejected .shuttingDown) := by
  rw [World.shutdown_eq]
  refine outcome_closes_suspended _ h ?_ hk
  exact List.mem_map.2 ⟨_, Table.mem_rows_iff.2 (h.registered_of_suspended hk), rfl⟩

theorem not_suspended_of_stale (h : Inv w) (hstale : (w.streams i).stale = true) :
    ¬ w.Suspended i k := by
  intro hk
  have := ((h.fits i).armed k (h.notify_of_suspended hk)).2.2.2.2
  simp [hstale] at this

theorem not_suspended_of_stopping (h : Inv w) (hstopping : w.stopping = true) :
    ¬ w.Suspended i k := by
  intro hk
  have hmem := Table.mem_rows_iff.2 (h.registered_of_suspended hk)
  rw [h.stopped hstopping] at hmem
  cases hmem

theorem outcome_wake (h : Inv w) {machine : String}
    (hi : w.subscriptions.get? machine = some i) (hk : w.Suspended i k) :
    (w.wake machine).outcome i k = some .resolved := by
  have hn := h.notify_of_suspended hk
  have hwait := ((h.fits i).armed k hn).2.1
  have hsettled : ((w.subs i).wake.waits[k]?).bind Wait.outcome = some .resolved := by
    unfold TaskSubscription.wake
    dsimp only
    rw [hn]
    show (((w.subs i).finish k).waits[k]?).bind Wait.outcome = some .resolved
    rw [TaskSubscription.finish_waits hwait, if_pos rfl]
    rfl
  unfold World.wake
  rw [hi]
  simpa [World.outcome] using hsettled

theorem phase_wait_of_stale (h : Inv w) (hyielded : (w.streams i).phase.yielded = true)
    (hstale : (w.streams i).stale = true) (hdisconnected : (w.streams i).disconnected = false)
    (haborted : (w.subs i).aborted = none) :
    ((w.wait i).streams i).phase = .continuing := by
  have hdirty := (h.fits i).dirty hyielded hstale
  simp [World.wait, World.move, hdisconnected, haborted, hdirty]

end Inv

/-! ## The mark of a wake -/

namespace World

variable {w : World} {i j : ℕ} {answer : Answer}

@[simp] theorem streams_release (w : World) (j : ℕ) : (w.release j).streams = w.streams := by
  unfold release
  split_ifs <;> rfl

@[simp] theorem stale_move (w : World) (i j : ℕ) (phase : Phase) :
    ((w.move j phase).streams i).stale = (w.streams i).stale := by
  by_cases hij : i = j <;> simp [move, hij]

@[simp] theorem stale_ends (w : World) (i j : ℕ) :
    ((w.ends j).streams i).stale = (w.streams i).stale := by
  simp [ends]

@[simp] theorem stale_wait (w : World) (i j : ℕ) :
    ((w.wait j).streams i).stale = (w.streams i).stale := by
  unfold wait
  dsimp only
  split_ifs <;> simp

@[simp] theorem stale_beat (w : World) (i j : ℕ) (answer : Answer) :
    ((w.beat j answer).streams i).stale = (w.streams i).stale := by
  unfold beat
  split_ifs <;> simp

theorem stale_turn (hstale : (w.streams i).stale = true) (hasks : i = j → ¬ w.Asks i answer) :
    ((w.turn j answer).streams i).stale = true := by
  unfold turn
  dsimp only
  split_ifs with habort hauth
  · simpa using hstale
  · simpa using hstale
  all_goals
    have hij : i ≠ j := by
      intro e
      subst e
      rw [not_or] at habort
      exact hasks rfl ⟨by simpa using habort.1, by simpa using habort.2, by simpa using hauth⟩
    simpa [hij] using hstale

/-- Only a query takes the mark away. -/
theorem stale_step (hi : i < w.opened) (hstale : (w.streams i).stale = true) {e : Event}
    (hq : ¬ w.Queries i e) : ((w.step e).streams i).stale = true := by
  cases e with
  | «open» machine bound =>
    simp only [step]
    split_ifs
    · exact hstale
    · simpa [World.open, hi.ne] using hstale
  | next j answer =>
    simp only [step, next]
    split
    next hphase => exact stale_turn hstale fun e ha => hq ⟨e, e ▸ hphase, ha⟩
    all_goals simpa using hstale
  | stop j =>
    simp only [step]
    split_ifs <;> simpa using hstale
  | resume j answer =>
    simp only [step, resume]
    split
    next hphase => exact stale_turn hstale fun e ha => hq ⟨e, ha, .inl (e ▸ hphase)⟩
    next k hphase =>
      split
      · exact hstale
      next hsettled =>
        refine stale_turn hstale fun e ha => hq ⟨e, ha, .inr ⟨k, e ▸ hphase, ?_⟩⟩
        rw [e]
        exact hsettled
      · simpa using hstale
    · exact hstale
  | wake machine =>
    simp only [step, wake]
    split
    · exact hstale
    next j _ => by_cases hij : i = j <;> simp [hij, hstale]
  | timeout j k =>
    simp only [step]
    split_ifs <;> simpa using hstale
  | disconnect j =>
    simp only [step]
    split_ifs
    · exact hstale
    · by_cases hij : i = j
      · subst hij
        simpa using hstale
      · simpa [hij] using hstale
  | close machine => simpa [step] using hstale
  | shutdown => simpa [step] using hstale

theorem opened_release (w : World) (j : ℕ) : (w.release j).opened = w.opened := by
  unfold release
  split_ifs <;> rfl

@[simp] theorem opened_ends (w : World) (j : ℕ) : (w.ends j).opened = w.opened :=
  opened_release w j

@[simp] theorem opened_wait (w : World) (j : ℕ) : (w.wait j).opened = w.opened := by
  unfold wait
  dsimp only
  split_ifs <;> simp [move]

@[simp] theorem opened_beat (w : World) (j : ℕ) (answer : Answer) :
    (w.beat j answer).opened = w.opened := by
  unfold beat
  split_ifs <;> simp [move]

@[simp] theorem opened_turn (w : World) (j : ℕ) (answer : Answer) :
    (w.turn j answer).opened = w.opened := by
  unfold turn
  dsimp only
  split_ifs <;> simp [move]

theorem opened_le_step (w : World) (e : Event) : w.opened ≤ (w.step e).opened := by
  cases e with
  | «open» machine bound =>
    simp only [step]
    split_ifs
    · exact le_rfl
    · simp [World.open]
  | next j answer =>
    simp only [step, next]
    split <;> simp
  | stop j =>
    simp only [step]
    split_ifs <;> simp
  | resume j answer =>
    simp only [step, resume]
    split
    · simp
    · split <;> simp
    · exact le_rfl
  | wake machine =>
    simp only [step, wake]
    split <;> simp
  | timeout j k =>
    simp only [step]
    split_ifs <;> simp
  | disconnect j =>
    simp only [step]
    split_ifs <;> simp
  | close machine => simp [step]
  | shutdown => simp [step]

end World

/-- What a run without a query preserves. -/
theorem Unqueried.preserves {w w' : World} {i : ℕ} (h : Unqueried i w w') (hw : Inv w)
    (hi : i < w.opened) (hstale : (w.streams i).stale = true) :
    Inv w' ∧ i < w'.opened ∧ (w'.streams i).stale = true := by
  induction h with
  | refl => exact ⟨hw, hi, hstale⟩
  | step e _ hq ih =>
    obtain ⟨hw', hi', hstale'⟩ := ih
    exact ⟨hw'.step e, hi'.trans_le (World.opened_le_step _ e),
      World.stale_step hi' hstale' hq⟩

/-- A release touches the subscription of its own stream only. -/
theorem World.release_of_ne (w : World) {machine : String} {i j : ℕ}
    (hj : w.subscriptions.get? machine = some j) (hne : j ≠ i) :
    (w.release i).subscriptions.get? machine = some j ∧ (w.release i).subs j = w.subs j := by
  unfold World.release
  split_ifs with hi
  · have hm : machine ≠ (w.streams i).machine := by
      rintro rfl
      exact hne (Option.some.inj (hj.symm.trans hi))
    exact ⟨by simp [World.unregister, Table.get?_deleteWhere, hj, hm],
      by simp [World.unregister, hne]⟩
  · exact ⟨hj, by simp [hne]⟩

/-- **No wake is lost.** In every interleaving: a wake settles the wait at which the stream of the
machine stands; until that stream has queried again it does not stand at an open wait, and a wait
that it begins after a yield returns at once. Releasing a superseded subscription leaves its
successor alone. Of the subscriptions of a machine, those that are not aborted are the one in the
hub. After shutdown nothing can be opened and no wait is open: shutdown rejects those there are. -/
theorem wakes_not_lost {w : World} (h : Reachable w) :
    (∀ machine i, w.subscriptions.get? machine = some i →
      (∀ k, w.Suspended i k → (w.step (.wake machine)).outcome i k = some .resolved) ∧
      ∀ w', Unqueried i (w.step (.wake machine)) w' →
        (∀ k, ¬ w'.Suspended i k) ∧
        ((w'.streams i).phase.yielded = true → (w'.streams i).disconnected = false →
          (w'.subs i).aborted = none → ((w'.wait i).streams i).phase = .continuing)) ∧
    (∀ machine i j, w.subscriptions.get? machine = some j → j ≠ i →
      (w.release i).subscriptions.get? machine = some j ∧ (w.release i).subs j = w.subs j) ∧
    (∀ i, i < w.opened →
      ((w.subs i).aborted = none ↔ w.subscriptions.get? (w.streams i).machine = some i)) ∧
    (w.stopping = true →
      (∀ machine bound, w.step (.open machine bound) = w) ∧ ∀ i k, ¬ w.Suspended i k) ∧
    (∀ i k, w.Suspended i k →
      (w.step .shutdown).outcome i k = some (.rejected .shuttingDown)) := by
  have hw := h.inv
  refine ⟨fun machine i hi => ⟨fun k hk => hw.outcome_wake hi hk, fun w' hrun => ?_⟩,
    fun machine i j hj hne => w.release_of_ne hj hne, fun i hi => ⟨fun ha => ?_, fun hreg => ?_⟩,
    fun hstopping => ⟨fun machine bound => ?_, fun i k =>
      hw.not_suspended_of_stopping hstopping⟩,
    fun i k hk => hw.outcome_shutdown hk⟩
  · have hopened : i < (w.step (.wake machine)).opened :=
      (hw.registered hi).1.trans_le (w.opened_le_step _)
    have hmarked : ((w.step (.wake machine)).streams i).stale = true := by
      simp [World.step, World.wake, hi]
    obtain ⟨hw', -, hstale⟩ := hrun.preserves (hw.step _) hopened hmarked
    exact ⟨fun k => hw'.not_suspended_of_stale hstale, fun hyielded hd ha =>
      hw'.phase_wait_of_stale hyielded hstale hd ha⟩
  · by_contra hne
    have := hw.superseded i hi hne
    simp [ha] at this
  · exact (hw.registered hreg).2.2
  · simp [World.step, hstopping]

/-- A stream that has queried and stands at its first wait. -/
def watching : World :=
  (World.step {} (.open "a" true)).step (.next 0 ⟨true, false, false⟩)

theorem watching_woken : (watching.step (.wake "a")).outcome 0 0 = some .resolved :=
  ((wakes_not_lost (.step (.next 0 ⟨true, false, false⟩) (.step (.open "a" true) .start))).1 "a" 0
    (by decide +kernel)).1 0 ⟨by decide +kernel, {}, by decide +kernel, rfl⟩

end Bifurcation.Panel.Watch
