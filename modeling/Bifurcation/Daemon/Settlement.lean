import Bifurcation.Daemon.Lifecycle

/-!
# The settlement of tracked connections

`adapters/singbox/tracker.go`: the stream and packet connections of one tracker, the read, write
and close calls on them, and `Drain`. Every call is a thread, whose steps are the sections between
two locks of the source; the threads take their steps in any order.

**Settlement.** A connection is settled by whoever finishes last: the close, or an operation that
was in flight when it began. A `sync.Once` guards the settlement, and another one the close.

**Draining** fences registration, closes what is registered, and waits until all of it is settled.
A connection that is refused is closed before anybody else has it.

`Consistent` relates one connection to the number of threads at each point of it. Main result:
`tracker_settles`.
-/

namespace Bifurcation.Daemon.Settlement

inductive Kind where
  | stream
  | packet
deriving DecidableEq

inductive Op where
  | read
  | write
deriving DecidableEq

/-- `sync.Once`. -/
inductive Once where
  | fresh
  | running
  | done
deriving DecidableEq

/-- A `trackedConn` or a `trackedPacketConn`, with its `connectionLifetime`. -/
structure Conn where
  kind : Kind := .stream
  user : String := ""
  closing : Bool := false
  closed : Bool := false
  inFlight : Int := 0
  settle : Once := .fresh
  closeOnce : Once := .fresh
  /-- `register` accepted it. -/
  registered : Bool := false
  /-- The call that routed it has returned it. -/
  returned : Bool := false
deriving DecidableEq

namespace Conn

def begin (conn : Conn) : Option Conn :=
  if conn.closing then none else some { conn with inFlight := conn.inFlight + 1 }

/-- `end`, and whether it settles the connection. -/
def endOperation (conn : Conn) : Conn × Bool :=
  let conn := { conn with inFlight := conn.inFlight - 1 }
  (conn, conn.closed && conn.inFlight = 0)

def startClose (conn : Conn) : Conn := { conn with closing := true }

/-- `finishClose`, and whether it settles the connection. -/
def finishClose (conn : Conn) : Conn × Bool :=
  let conn := { conn with closed := true }
  (conn, conn.inFlight = 0)

end Conn

/-- Who has settled a connection: an operation, or a close that may be that of the call which
routes the connection. -/
inductive After where
  | operation
  | close (routes : Bool)
deriving DecidableEq

/-- What a thread does next. -/
inductive Phase where
  /-- `RoutedConnection` and `RoutedPacketConnection` register what they have wrapped. -/
  | register (c : ℕ)
  /-- `Close` arrives at its `closeOnce`. -/
  | close (c : ℕ) (routes : Bool)
  | startClose (c : ℕ) (routes : Bool)
  | innerClose (c : ℕ) (routes : Bool)
  | finishClose (c : ℕ) (routes : Bool)
  | begin (c : ℕ) (op : Op)
  /-- The operation of the connection that is wrapped. -/
  | inner (c : ℕ) (op : Op)
  | count (c : ℕ) (op : Op) (n : Int)
  | endOperation (c : ℕ)
  /-- `settle.Do(onSettled)`. -/
  | settle (c : ℕ) (after : After)
  /-- `onSettled` runs: `release`. -/
  | release (c : ℕ) (after : After)
  | drain
  | wait
  /-- The counter of `settled` was zero. -/
  | settled
  | drained
  | expired
  | returned
deriving DecidableEq

structure World where
  tracker : Tracker
  upload : String → Int64 := fun _ => 0
  download : String → Int64 := fun _ => 0
  active : Int := 0
  draining : Bool := false
  closers : List ℕ := []
  /-- The counter of the wait group. -/
  settled : Int := 0
  conns : ℕ → Conn := fun _ => {}
  /-- The number of connections that were wrapped. -/
  routed : ℕ := 0
  threads : List Phase := []
  /-- The connections whose `onSettled` ran, the last first. -/
  runs : List ℕ := []

inductive Event where
  | route (kind : Kind) (user : String)
  | operation (c : ℕ) (op : Op)
  | close (c : ℕ)
  | drain
  /-- A thread takes its next step. An operation of the wrapped connection has moved `n` bytes. -/
  | step (t : ℕ) (n : Int) (failed : Bool)
  /-- The context of a `Drain` has ended. -/
  | expire (t : ℕ)

namespace World

def setConn (w : World) (c : ℕ) (conn : Conn) : World :=
  { w with conns := Function.update w.conns c conn }

def move (w : World) (t : ℕ) (phase : Phase) : World :=
  { w with threads := w.threads.set t phase }

def spawn (w : World) (phases : List Phase) : World := { w with threads := w.threads ++ phases }

/-- `register`, where the tracker does not drain. -/
def register (w : World) (c : ℕ) : World :=
  { w with closers := w.closers.insert c, settled := w.settled + 1, active := w.active + 1 }

def release (w : World) (c : ℕ) : World :=
  if c ∈ w.closers then
    { w with closers := w.closers.erase c, active := w.active - 1, settled := w.settled - 1 }
  else w

/-- The bytes that an operation counts: a packet that was not written does not count. -/
def counted (kind : Kind) (op : Op) (n : Int) (failed : Bool) : Option Int :=
  if n > 0 ∧ ¬ (kind = .packet ∧ op = .write ∧ failed = true) then some n else none

def count (w : World) (user : String) (op : Op) (n : Int) : World :=
  match op with
  | .read => { w with upload := Function.update w.upload user (w.upload user + Int64.ofInt n) }
  | .write =>
    { w with download := Function.update w.download user (w.download user + Int64.ofInt n) }

/-- A `Close` that was the first returns. -/
def closeReturns (w : World) (t c : ℕ) (routes : Bool) (conn : Conn) : World :=
  (w.setConn c { conn with closeOnce := .done, returned := conn.returned || routes }).move t
    .returned

/-- `release` inside `settle.Do`, and what follows. -/
def releases (w : World) (t c : ℕ) (after : After) : World :=
  let conn := { w.conns c with settle := .done }
  let released := { w.release c with runs := c :: w.runs }
  match after with
  | .operation => (released.setConn c conn).move t .returned
  | .close routes => released.closeReturns t c routes conn

def advance (w : World) (t : ℕ) (n : Int) (failed : Bool) : Phase → World
  | .register c =>
    if w.draining then w.move t (.close c true)
    else
      ((w.register c).setConn c { w.conns c with registered := true, returned := true }).move t
        .returned
  | .close c routes =>
    match (w.conns c).closeOnce with
    | .fresh => (w.setConn c { w.conns c with closeOnce := .running }).move t (.startClose c routes)
    -- Another close runs: `closeOnce` blocks.
    | .running => w
    | .done => w.closeReturns t c routes (w.conns c)
  | .startClose c routes => (w.setConn c (w.conns c).startClose).move t (.innerClose c routes)
  | .innerClose c routes => w.move t (.finishClose c routes)
  | .finishClose c routes =>
    let (conn, settles) := (w.conns c).finishClose
    if settles then (w.setConn c conn).move t (.settle c (.close routes))
    else w.closeReturns t c routes conn
  | .begin c op =>
    match (w.conns c).begin with
    | none => w.move t .returned
    | some conn => (w.setConn c conn).move t (.inner c op)
  | .inner c op =>
    match counted (w.conns c).kind op n failed with
    | some n => w.move t (.count c op n)
    | none => w.move t (.endOperation c)
  | .count c op n => (w.count (w.conns c).user op n).move t (.endOperation c)
  | .endOperation c =>
    let (conn, settles) := (w.conns c).endOperation
    (w.setConn c conn).move t (if settles then .settle c .operation else .returned)
  | .settle c after =>
    match (w.conns c).settle with
    | .fresh => (w.setConn c { w.conns c with settle := .running }).move t (.release c after)
    | .running => w
    | .done =>
      match after with
      | .operation => w.move t .returned
      | .close routes => w.closeReturns t c routes (w.conns c)
  | .release c after => w.releases t c after
  -- The goroutines that close start here, and may take their first step at any time after.
  | .drain => ({ w with draining := true }.move t .wait).spawn (w.closers.map (.close · false))
  | .wait => if w.settled = 0 then w.move t .settled else w
  | .settled => w.move t .drained
  | .drained => w
  | .expired => w
  | .returned => w

def step (w : World) : Event → World
  | .route kind user =>
    -- A connection of nobody is returned as it is.
    if user ∈ w.tracker.userIDs then
      { w.setConn w.routed { kind, user } with routed := w.routed + 1 }.spawn [.register w.routed]
    else w
  | .operation c op => if (w.conns c).returned then w.spawn [.begin c op] else w
  | .close c => if (w.conns c).returned then w.spawn [.close c false] else w
  | .drain => w.spawn [.drain]
  | .step t n failed =>
    match w.threads[t]? with
    | none => w
    | some phase => w.advance t n failed phase
  | .expire t =>
    if w.threads[t]? = some .wait ∨ w.threads[t]? = some .settled then w.move t .expired else w

/-- `Counters`, at any time. -/
def sample (w : World) (observedAt : Int) : List Counter :=
  w.tracker.counters (fun user => (w.upload user).toInt) (fun user => (w.download user).toInt)
    observedAt

end World

/-- The worlds that events lead to. -/
inductive Runs (w : World) : World → Prop where
  | refl : Runs w w
  | step {w' : World} (e : Event) (h : Runs w w') : Runs w (w'.step e)

/-! ## Threads by what they are at -/

inductive Role where
  | register
  | call
  | start
  | ending
  | enter
  | inside
  | settleOperation
  | settleClose
  | releaseOperation
  | releaseClose
deriving DecidableEq

/-- The connection that a thread is at, and what it does there. -/
def Phase.role : Phase → Option (ℕ × Role)
  | .register c => some (c, .register)
  | .close c _ => some (c, .call)
  | .startClose c _ => some (c, .start)
  | .innerClose c _ => some (c, .ending)
  | .finishClose c _ => some (c, .ending)
  | .begin c _ => some (c, .enter)
  | .inner c _ => some (c, .inside)
  | .count c _ _ => some (c, .inside)
  | .endOperation c => some (c, .inside)
  | .settle c .operation => some (c, .settleOperation)
  | .settle c (.close _) => some (c, .settleClose)
  | .release c .operation => some (c, .releaseOperation)
  | .release c (.close _) => some (c, .releaseClose)
  | .drain | .wait | .settled | .drained | .expired | .returned => none

/-- What a thread does at one connection. -/
def Phase.roleAt (c : ℕ) (phase : Phase) : Option Role :=
  phase.role.bind fun x => if x.1 = c then some x.2 else none

/-- The number of threads that do something at a connection. -/
def tally (threads : List Phase) (c : ℕ) (r : Role) : ℕ :=
  threads.countP fun phase => phase.roleAt c = some r

/-- One thread comes from one point to another. -/
def shift (k : Role → ℕ) (source target : Option Role) (r : Role) : ℕ :=
  k r - (if source = some r then 1 else 0) + if target = some r then 1 else 0

theorem tally_set {threads : List Phase} {t : ℕ} {old : Phase} (h : threads[t]? = some old)
    (new : Phase) (c : ℕ) :
    tally (threads.set t new) c = shift (tally threads c) (old.roleAt c) (new.roleAt c) := by
  obtain ⟨hlt, hold⟩ := List.getElem?_eq_some_iff.1 h
  funext r
  rw [tally, List.countP_set hlt, hold, shift, tally]
  simp only [decide_eq_true_eq]

theorem tally_append (threads phases : List Phase) (c : ℕ) (r : Role) :
    tally (threads ++ phases) c r = tally threads c r + tally phases c r := by
  rw [tally, List.countP_append, tally, tally]

theorem tally_pos {threads : List Phase} {t : ℕ} {old : Phase} (h : threads[t]? = some old)
    {c : ℕ} {r : Role} (hr : old.roleAt c = some r) : 0 < tally threads c r :=
  List.countP_pos_iff.2 ⟨old, List.mem_of_getElem? h, decide_eq_true hr⟩

theorem shift_self (k : Role → ℕ) {o : Option Role} (h : ∀ r, o = some r → 0 < k r) :
    shift k o o = k := by
  funext r
  unfold shift
  split_ifs with ho
  · have := h r ho
    omega
  · omega

/-! ## One connection -/

/-- The state of a connection, the threads that are at it, the number of times it was settled, and
whether the tracker holds it. -/
structure Consistent (conn : Conn) (k : Role → ℕ) (runs : ℕ) (held : Prop) : Prop where
  inFlight : conn.inFlight = k .inside
  closeFresh : conn.closeOnce = .fresh →
    k .start + k .ending + k .settleClose + k .releaseClose = 0 ∧
      conn.closing = false ∧ conn.closed = false
  closeRunning : conn.closeOnce = .running →
    k .start + k .ending + k .settleClose + k .releaseClose = 1 ∧
      (conn.closing = true ↔ k .start = 0) ∧ (conn.closed = true ↔ k .start + k .ending = 0)
  closeDone : conn.closeOnce = .done →
    k .start + k .ending + k .settleClose + k .releaseClose = 0 ∧
      conn.closing = true ∧ conn.closed = true
  settleFresh : conn.settle = .fresh → k .releaseOperation + k .releaseClose = 0 ∧
    (conn.closed = true ∧ k .inside = 0 → k .settleOperation + k .settleClose = 1) ∧
    (¬ (conn.closed = true ∧ k .inside = 0) → k .settleOperation + k .settleClose = 0)
  settleRunning : conn.settle = .running → k .releaseOperation + k .releaseClose = 1 ∧
    k .settleOperation + k .settleClose = 0 ∧ conn.closed = true ∧ k .inside = 0
  settleDone : conn.settle = .done → k .releaseOperation + k .releaseClose = 0 ∧
    k .settleOperation + k .settleClose = 0 ∧ conn.closed = true ∧ k .inside = 0
  runs : runs = if conn.settle = .done then 1 else 0
  held : held ↔ conn.registered = true ∧ conn.settle ≠ .done
  returned : conn.returned = true → conn.registered = true ∨ conn.closing = true
  entering : conn.returned = false → k .enter = 0
  unregistered : conn.registered = false → k .inside = 0
  registering : 0 < k .register → k .register = 1 ∧ k .call = 0 ∧ conn.registered = false ∧
    conn.returned = false ∧ conn.closeOnce = .fresh

section Consistent

variable {conn conn' : Conn} {k : Role → ℕ} {runs : ℕ} {held : Prop}

theorem Consistent.closing_of_closed (h : Consistent conn k runs held)
    (hclosed : conn.closed = true) : conn.closing = true := by
  cases honce : conn.closeOnce with
  | fresh =>
    have := (h.closeFresh honce).2.2
    simp_all
  | running =>
    obtain ⟨-, hclosing, hclosed'⟩ := h.closeRunning honce
    rw [hclosing]
    have := hclosed'.1 hclosed
    omega
  | done => exact (h.closeDone honce).2.1

/-- Whoever begins finds the connection open. -/
theorem Consistent.begin (h : Consistent conn k runs held) (hk : 0 < k .enter)
    (hbegin : conn.begin = some conn') :
    Consistent conn' (shift k (some .enter) (some .inside)) runs held := by
  unfold Conn.begin at hbegin
  split_ifs at hbegin with hclosing
  obtain rfl := Option.some.inj hbegin
  have hclosed := mt h.closing_of_closed hclosing
  have hregistered : conn.registered = true := by
    have hreturned : conn.returned = true := by
      by_contra hreturned
      have := h.entering (Bool.eq_false_iff.2 hreturned)
      omega
    exact (h.returned hreturned).resolve_right hclosing
  exact
    { inFlight := by
        show conn.inFlight + 1 = ((k .inside - 0 + 1 : ℕ) : Int)
        rw [h.inFlight]
        rfl
      closeFresh := h.closeFresh
      closeRunning := h.closeRunning
      closeDone := h.closeDone
      settleFresh := fun hfresh => ⟨(h.settleFresh hfresh).1, fun hboth => absurd hboth.1 hclosed,
        fun _ => (h.settleFresh hfresh).2.2 fun hboth => hclosed hboth.1⟩
      settleRunning := fun hrunning => absurd (h.settleRunning hrunning).2.2.1 hclosed
      settleDone := fun hdone => absurd (h.settleDone hdone).2.2.1 hclosed
      runs := h.runs
      held := h.held
      returned := h.returned
      entering := fun hreturned => by
        show k .enter - 1 = 0
        rw [h.entering hreturned]
      unregistered := fun hunregistered => absurd hregistered (Bool.eq_false_iff.1 hunregistered)
      registering := h.registering }

/-- Whoever finds it closing returns. -/
theorem Consistent.refused (h : Consistent conn k runs held) :
    Consistent conn (shift k (some .enter) none) runs held where
  inFlight := h.inFlight
  closeFresh := h.closeFresh
  closeRunning := h.closeRunning
  closeDone := h.closeDone
  settleFresh := h.settleFresh
  settleRunning := h.settleRunning
  settleDone := h.settleDone
  runs := h.runs
  held := h.held
  returned := h.returned
  entering hreturned := by
    show k .enter - 1 = 0
    rw [h.entering hreturned]
  unregistered := h.unregistered
  registering := h.registering

/-- A connection with an operation in flight is not being settled. -/
theorem Consistent.settle_of_inside (h : Consistent conn k runs held) (hk : 0 < k .inside) :
    conn.settle = .fresh := by
  cases hsettle : conn.settle with
  | fresh => rfl
  | running =>
    have := (h.settleRunning hsettle).2.2.2
    omega
  | done =>
    have := (h.settleDone hsettle).2.2.2
    omega

/-- **The last operation of a closed connection settles it.** -/
theorem Consistent.endOperation (h : Consistent conn k runs held) (hk : 0 < k .inside) :
    Consistent conn.endOperation.1 (shift k (some .inside)
      (if conn.endOperation.2 then some .settleOperation else none)) runs held := by
  have hfresh := h.settle_of_inside hk
  obtain ⟨hrelease, -, hnone⟩ := h.settleFresh hfresh
  have hnone := hnone fun hboth => by omega
  have hsettles : conn.endOperation.2 = true ↔ conn.closed = true ∧ k .inside - 1 = 0 := by
    simp only [Conn.endOperation, h.inFlight, Bool.and_eq_true, decide_eq_true_eq]
    refine and_congr_right fun _ => ?_
    omega
  have hinFlight : conn.inFlight - 1 = ((k .inside - 1 : ℕ) : Int) := by
    rw [h.inFlight]
    omega
  have hunregistered : conn.registered = false → k .inside - 1 = 0 := fun hregistered => by
    rw [h.unregistered hregistered]
  by_cases hlast : conn.endOperation.2 = true
  · rw [if_pos hlast]
    rw [hsettles] at hlast
    exact
      { inFlight := hinFlight
        closeFresh := h.closeFresh
        closeRunning := h.closeRunning
        closeDone := h.closeDone
        settleFresh := fun _ => ⟨hrelease, fun _ => by
          show k .settleOperation + 1 + k .settleClose = 1
          omega, fun hnot => absurd hlast hnot⟩
        settleRunning := fun hrunning => nomatch hfresh.symm.trans hrunning
        settleDone := fun hdone => nomatch hfresh.symm.trans hdone
        runs := h.runs
        held := h.held
        returned := h.returned
        entering := h.entering
        unregistered := hunregistered
        registering := h.registering }
  · rw [if_neg hlast]
    rw [hsettles] at hlast
    exact
      { inFlight := hinFlight
        closeFresh := h.closeFresh
        closeRunning := h.closeRunning
        closeDone := h.closeDone
        settleFresh := fun _ => ⟨hrelease, fun hboth => absurd hboth hlast, fun _ => hnone⟩
        settleRunning := fun hrunning => nomatch hfresh.symm.trans hrunning
        settleDone := fun hdone => nomatch hfresh.symm.trans hdone
        runs := h.runs
        held := h.held
        returned := h.returned
        entering := h.entering
        unregistered := hunregistered
        registering := h.registering }

/-- The first close runs. -/
theorem Consistent.closeOnce (h : Consistent conn k runs held) (hk : 0 < k .call)
    (honce : conn.closeOnce = .fresh) :
    Consistent { conn with closeOnce := .running } (shift k (some .call) (some .start)) runs
      held := by
  obtain ⟨hclosers, hclosing, hclosed⟩ := h.closeFresh honce
  exact
    { inFlight := h.inFlight
      closeFresh := fun hfresh => nomatch hfresh
      closeRunning := fun _ => by
        show k .start + 1 + k .ending + k .settleClose + k .releaseClose = 1 ∧
          (conn.closing = true ↔ k .start + 1 = 0) ∧
          (conn.closed = true ↔ k .start + 1 + k .ending = 0)
        simp only [hclosing, hclosed, Bool.false_eq_true, false_iff]
        omega
      closeDone := fun hdone => nomatch hdone
      settleFresh := h.settleFresh
      settleRunning := h.settleRunning
      settleDone := h.settleDone
      runs := h.runs
      held := h.held
      returned := h.returned
      entering := h.entering
      unregistered := h.unregistered
      registering := fun hregister => by
        have := (h.registering hregister).2.1
        omega }

/-- A thread that closes is the only one. -/
theorem Consistent.running_of_closer (h : Consistent conn k runs held)
    (hk : 0 < k .start + k .ending + k .settleClose + k .releaseClose) :
    conn.closeOnce = .running := by
  cases honce : conn.closeOnce with
  | fresh =>
    have := (h.closeFresh honce).1
    omega
  | running => rfl
  | done =>
    have := (h.closeDone honce).1
    omega

theorem Consistent.not_registering (h : Consistent conn k runs held)
    (honce : conn.closeOnce ≠ .fresh) : k .register = 0 := by
  by_contra hregister
  exact honce (h.registering (Nat.pos_of_ne_zero hregister)).2.2.2.2

theorem Consistent.startClose (h : Consistent conn k runs held) (hk : 0 < k .start) :
    Consistent conn.startClose (shift k (some .start) (some .ending)) runs held := by
  have honce := h.running_of_closer (by omega)
  obtain ⟨hone, -, hclosed⟩ := h.closeRunning honce
  exact
    { inFlight := h.inFlight
      closeFresh := fun hfresh => nomatch honce.symm.trans hfresh
      closeRunning := fun _ => by
        show k .start - 1 + (k .ending + 1) + k .settleClose + k .releaseClose = 1 ∧
          (true = true ↔ k .start - 1 = 0) ∧
          (conn.closed = true ↔ k .start - 1 + (k .ending + 1) = 0)
        simp only [hclosed, true_iff]
        omega
      closeDone := fun hdone => nomatch honce.symm.trans hdone
      settleFresh := h.settleFresh
      settleRunning := h.settleRunning
      settleDone := h.settleDone
      runs := h.runs
      held := h.held
      returned := fun _ => .inr rfl
      entering := h.entering
      unregistered := h.unregistered
      registering := h.registering }

/-- The first close returns. -/
def Conn.closeReturns (conn : Conn) (routes : Bool) : Conn :=
  { conn with closeOnce := .done, returned := conn.returned || routes }

/-- **The close of a connection without operations settles it.** -/
theorem Consistent.finishClose (h : Consistent conn k runs held) (hk : 0 < k .ending)
    (routes : Bool) :
    Consistent
      (if conn.finishClose.2 then conn.finishClose.1 else conn.finishClose.1.closeReturns routes)
      (shift k (some .ending) (if conn.finishClose.2 then some .settleClose else none)) runs
      held := by
  have honce := h.running_of_closer (by omega)
  obtain ⟨hone, hclosing, hclosed⟩ := h.closeRunning honce
  have hopen : conn.closed ≠ true := fun hclosed' => by
    have := hclosed.1 hclosed'
    omega
  have hclosing' : conn.closing = true := hclosing.2 (by omega)
  have hfresh : conn.settle = .fresh := by
    cases hsettle : conn.settle with
    | fresh => rfl
    | running => exact absurd (h.settleRunning hsettle).2.2.1 hopen
    | done => exact absurd (h.settleDone hsettle).2.2.1 hopen
  obtain ⟨hrelease, -, hnone⟩ := h.settleFresh hfresh
  have hnone := hnone fun hboth => hopen hboth.1
  have hsettles : conn.finishClose.2 = true ↔ k .inside = 0 := by
    simp only [Conn.finishClose, h.inFlight, decide_eq_true_eq]
    omega
  by_cases hlast : conn.finishClose.2 = true
  · rw [if_pos hlast, if_pos hlast]
    rw [hsettles] at hlast
    exact
      { inFlight := h.inFlight
        closeFresh := fun hfresh => nomatch honce.symm.trans hfresh
        closeRunning := fun _ => by
          show k .start + (k .ending - 1) + (k .settleClose + 1) + k .releaseClose = 1 ∧
            (conn.closing = true ↔ k .start = 0) ∧ (true = true ↔ k .start + (k .ending - 1) = 0)
          exact ⟨by omega, hclosing, fun _ => by omega, fun _ => rfl⟩
        closeDone := fun hdone => nomatch honce.symm.trans hdone
        settleFresh := fun _ => ⟨hrelease, fun _ => by
          show k .settleOperation + (k .settleClose + 1) = 1
          omega, fun hnot => absurd ⟨rfl, hlast⟩ hnot⟩
        settleRunning := fun hrunning => nomatch hfresh.symm.trans hrunning
        settleDone := fun hdone => nomatch hfresh.symm.trans hdone
        runs := h.runs
        held := h.held
        returned := h.returned
        entering := h.entering
        unregistered := h.unregistered
        registering := h.registering }
  · rw [if_neg hlast, if_neg hlast]
    rw [hsettles] at hlast
    have hregister := h.not_registering fun hfresh => nomatch honce.symm.trans hfresh
    exact
      { inFlight := h.inFlight
        closeFresh := fun hfresh => nomatch hfresh
        closeRunning := fun hrunning => nomatch hrunning
        closeDone := fun _ => ⟨by
          show k .start + (k .ending - 1) + k .settleClose + k .releaseClose = 0
          omega, hclosing', rfl⟩
        settleFresh := fun _ => ⟨hrelease, fun hboth => absurd hboth.2 hlast, fun _ => hnone⟩
        settleRunning := fun hrunning => nomatch hfresh.symm.trans hrunning
        settleDone := fun hdone => nomatch hfresh.symm.trans hdone
        runs := h.runs
        held := h.held
        returned := fun _ => .inr hclosing'
        entering := fun hreturned => h.entering (Bool.or_eq_false_iff.1 hreturned).1
        unregistered := h.unregistered
        registering := fun hk => by
          have : 0 < k .register := hk
          omega }

/-- A close that was not the first returns. -/
theorem Consistent.closeReturns (h : Consistent conn k runs held) (honce : conn.closeOnce = .done)
    (routes : Bool) :
    Consistent (conn.closeReturns routes) (shift k (some .call) none) runs held := by
  obtain ⟨hclosers, hclosing, hclosed⟩ := h.closeDone honce
  have hregister := h.not_registering fun hfresh => nomatch honce.symm.trans hfresh
  exact
    { inFlight := h.inFlight
      closeFresh := fun hfresh => nomatch hfresh
      closeRunning := fun hrunning => nomatch hrunning
      closeDone := fun _ => ⟨hclosers, hclosing, hclosed⟩
      settleFresh := h.settleFresh
      settleRunning := h.settleRunning
      settleDone := h.settleDone
      runs := h.runs
      held := h.held
      returned := fun _ => .inr hclosing
      entering := fun hreturned => h.entering (Bool.or_eq_false_iff.1 hreturned).1
      unregistered := h.unregistered
      registering := fun hk => by
        have : 0 < k .register := hk
        omega }

/-- Who settles a connection is the only one. -/
theorem Consistent.settle_of_settler (h : Consistent conn k runs held)
    (hk : 0 < k .settleOperation + k .settleClose) : conn.settle = .fresh := by
  cases hsettle : conn.settle with
  | fresh => rfl
  | running =>
    have := (h.settleRunning hsettle).2.1
    omega
  | done =>
    have := (h.settleDone hsettle).2.1
    omega

/-- What comes before `onSettled`, and `onSettled`. -/
def After.settles : After → Role
  | .operation => .settleOperation
  | .close _ => .settleClose

def After.releases : After → Role
  | .operation => .releaseOperation
  | .close _ => .releaseClose

/-- `onSettled` begins. -/
theorem Consistent.settle (h : Consistent conn k runs held) (after : After)
    (hk : 0 < k after.settles) :
    Consistent { conn with settle := .running }
      (shift k (some after.settles) (some after.releases)) runs held := by
  have hpos : 0 < k .settleOperation + k .settleClose := by
    cases after with
    | operation => exact Nat.add_pos_left hk _
    | close routes => exact Nat.add_pos_right _ hk
  have hfresh := h.settle_of_settler hpos
  obtain ⟨hrelease, hone, hnone⟩ := h.settleFresh hfresh
  have hboth : conn.closed = true ∧ k .inside = 0 := by
    by_contra hboth
    have := hnone hboth
    omega
  have hone := hone hboth
  have hruns : runs = 0 := by
    rw [h.runs, if_neg (by rw [hfresh]; decide)]
  have hheld : held ↔ conn.registered = true ∧ Once.running ≠ .done := by
    rw [h.held, hfresh]
    simp
  cases after with
  | operation =>
    have hk : 0 < k .settleOperation := hk
    exact
      { inFlight := h.inFlight
        closeFresh := h.closeFresh
        closeRunning := h.closeRunning
        closeDone := h.closeDone
        settleFresh := fun hfresh => nomatch hfresh
        settleRunning := fun _ => ⟨by
          show k .releaseOperation + 1 + k .releaseClose = 1
          omega, by
          show k .settleOperation - 1 + k .settleClose = 0
          omega, hboth⟩
        settleDone := fun hdone => nomatch hdone
        runs := hruns
        held := hheld
        returned := h.returned
        entering := h.entering
        unregistered := h.unregistered
        registering := h.registering }
  | close routes =>
    have hk : 0 < k .settleClose := hk
    have honce := h.running_of_closer (by omega)
    exact
      { inFlight := h.inFlight
        closeFresh := fun hfresh => nomatch honce.symm.trans hfresh
        closeRunning := fun _ => by
          obtain ⟨hsum, hrest⟩ := h.closeRunning honce
          refine ⟨?_, hrest⟩
          show k .start + k .ending + (k .settleClose - 1) + (k .releaseClose + 1) = 1
          omega
        closeDone := fun hdone => nomatch honce.symm.trans hdone
        settleFresh := fun hfresh => nomatch hfresh
        settleRunning := fun _ => ⟨by
          show k .releaseOperation + (k .releaseClose + 1) = 1
          omega, by
          show k .settleOperation + (k .settleClose - 1) = 0
          omega, hboth⟩
        settleDone := fun hdone => nomatch hdone
        runs := hruns
        held := hheld
        returned := h.returned
        entering := h.entering
        unregistered := h.unregistered
        registering := h.registering }

/-- **Where `onSettled` runs** the connection is closed, and nothing is in flight. -/
theorem Consistent.settle_of_releaser (h : Consistent conn k runs held)
    (hk : 0 < k .releaseOperation + k .releaseClose) :
    conn.settle = .running ∧ k .releaseOperation + k .releaseClose = 1 ∧
      k .settleOperation + k .settleClose = 0 ∧ conn.closed = true ∧ k .inside = 0 := by
  cases hsettle : conn.settle with
  | fresh =>
    have := (h.settleFresh hsettle).1
    omega
  | running => exact ⟨rfl, h.settleRunning hsettle⟩
  | done =>
    have := (h.settleDone hsettle).1
    omega

/-- The connection after `onSettled`. -/
def Conn.releases (conn : Conn) : After → Conn
  | .operation => { conn with settle := .done }
  | .close routes => { conn with settle := .done }.closeReturns routes

/-- `onSettled` ends. -/
theorem Consistent.release (h : Consistent conn k runs held) (after : After)
    (hk : 0 < k after.releases) :
    Consistent (conn.releases after) (shift k (some after.releases) none) (runs + 1) False := by
  have hpos : 0 < k .releaseOperation + k .releaseClose := by
    cases after with
    | operation => exact Nat.add_pos_left hk _
    | close routes => exact Nat.add_pos_right _ hk
  obtain ⟨hrunning, hone, hsettles, hclosed, hinside⟩ := h.settle_of_releaser hpos
  have hruns : runs = 0 := by
    rw [h.runs, if_neg (by rw [hrunning]; decide)]
  have hheld : False ↔ conn.registered = true ∧ Once.done ≠ .done := by simp
  cases after with
  | operation =>
    have hk : 0 < k .releaseOperation := hk
    exact
      { inFlight := h.inFlight
        closeFresh := h.closeFresh
        closeRunning := h.closeRunning
        closeDone := h.closeDone
        settleFresh := fun hfresh => nomatch hfresh
        settleRunning := fun hrunning => nomatch hrunning
        settleDone := fun _ => ⟨by
          show k .releaseOperation - 1 + k .releaseClose = 0
          omega, hsettles, hclosed, hinside⟩
        runs := by rw [hruns]; rfl
        held := hheld
        returned := h.returned
        entering := h.entering
        unregistered := h.unregistered
        registering := h.registering }
  | close routes =>
    have hk : 0 < k .releaseClose := hk
    have honce := h.running_of_closer (by omega)
    have hsum := (h.closeRunning honce).1
    have hclosing := h.closing_of_closed hclosed
    have hregister := h.not_registering fun hfresh => nomatch honce.symm.trans hfresh
    exact
      { inFlight := h.inFlight
        closeFresh := fun hfresh => nomatch hfresh
        closeRunning := fun hrunning => nomatch hrunning
        closeDone := fun _ => ⟨by
          show k .start + k .ending + k .settleClose + (k .releaseClose - 1) = 0
          omega, hclosing, hclosed⟩
        settleFresh := fun hfresh => nomatch hfresh
        settleRunning := fun hrunning => nomatch hrunning
        settleDone := fun _ => ⟨by
          show k .releaseOperation + (k .releaseClose - 1) = 0
          omega, hsettles, hclosed, hinside⟩
        runs := by rw [hruns]; rfl
        held := hheld
        returned := fun _ => .inr hclosing
        entering := fun hreturned => h.entering (Bool.or_eq_false_iff.1 hreturned).1
        unregistered := h.unregistered
        registering := fun hk => by
          have : 0 < k .register := hk
          omega }

/-- The tracker holds the connection, and the call that routes it returns. -/
theorem Consistent.register (h : Consistent conn k runs held) (hk : 0 < k .register) :
    Consistent { conn with registered := true, returned := true } (shift k (some .register) none)
      runs True := by
  obtain ⟨hone, -, -, -, honce⟩ := h.registering hk
  have hopen := (h.closeFresh honce).2.2
  have hsettle : conn.settle = .fresh := by
    cases hsettle : conn.settle with
    | fresh => rfl
    | running => exact nomatch hopen.symm.trans (h.settleRunning hsettle).2.2.1
    | done => exact nomatch hopen.symm.trans (h.settleDone hsettle).2.2.1
  exact
    { inFlight := h.inFlight
      closeFresh := h.closeFresh
      closeRunning := h.closeRunning
      closeDone := h.closeDone
      settleFresh := h.settleFresh
      settleRunning := h.settleRunning
      settleDone := h.settleDone
      runs := h.runs
      held := iff_of_true trivial ⟨rfl, by rw [hsettle]; decide⟩
      returned := fun _ => .inl rfl
      entering := fun hreturned => nomatch hreturned
      unregistered := fun hregistered => nomatch hregistered
      registering := fun hk => by
        have : 0 < k .register - 1 := hk
        omega }

/-- A connection that is refused is closed. -/
theorem Consistent.refuse (h : Consistent conn k runs held) (hk : 0 < k .register) :
    Consistent conn (shift k (some .register) (some .call)) runs held where
  inFlight := h.inFlight
  closeFresh := h.closeFresh
  closeRunning := h.closeRunning
  closeDone := h.closeDone
  settleFresh := h.settleFresh
  settleRunning := h.settleRunning
  settleDone := h.settleDone
  runs := h.runs
  held := h.held
  returned := h.returned
  entering := h.entering
  unregistered := h.unregistered
  registering hk' := by
    have hlt : 0 < k .register - 1 := hk'
    have := (h.registering hk).1
    omega

/-- An operation begins on a connection that was returned. -/
theorem Consistent.operation (h : Consistent conn k runs held) (hreturned : conn.returned = true) :
    Consistent conn (shift k none (some .enter)) runs held where
  inFlight := h.inFlight
  closeFresh := h.closeFresh
  closeRunning := h.closeRunning
  closeDone := h.closeDone
  settleFresh := h.settleFresh
  settleRunning := h.settleRunning
  settleDone := h.settleDone
  runs := h.runs
  held := h.held
  returned := h.returned
  entering hnot := nomatch hreturned.symm.trans hnot
  unregistered := h.unregistered
  registering := h.registering

/-- A connection that was returned or registered may be closed by any number of threads. -/
theorem Consistent.close (h : Consistent conn k runs held) (hk : k .register = 0) (n : ℕ)
    {k' : Role → ℕ} (hk' : ∀ r, k' r = k r + if r = .call then n else 0) :
    Consistent conn k' runs held := by
  have hsame : ∀ r, r ≠ .call → k' r = k r := fun r hr => by rw [hk', if_neg hr]; rfl
  obtain ⟨h₁, h₂, h₃, h₄, h₅, h₆, h₇, h₈, h₉, h₁₀, h₁₁, h₁₂, -⟩ := h
  rw [← hsame .inside (by decide)] at h₁ h₅ h₆ h₇ h₁₂
  rw [← hsame .start (by decide), ← hsame .ending (by decide), ← hsame .settleClose (by decide),
    ← hsame .releaseClose (by decide)] at h₂ h₃ h₄
  rw [← hsame .releaseOperation (by decide), ← hsame .releaseClose (by decide),
    ← hsame .settleOperation (by decide), ← hsame .settleClose (by decide)] at h₅ h₆ h₇
  rw [← hsame .enter (by decide)] at h₁₁
  refine ⟨h₁, h₂, h₃, h₄, h₅, h₆, h₇, h₈, h₉, h₁₀, h₁₁, h₁₂, fun hregister => ?_⟩
  rw [hsame .register (by decide)] at hregister
  omega

end Consistent

/-! ## All connections -/

/-- The thread is a `Drain` that has fenced the registration. -/
def Phase.fenced : Phase → Bool
  | .wait | .settled | .drained | .expired => true
  | _ => false

/-- The thread is a `Drain` that has seen everything settled. -/
def Phase.finished : Phase → Bool
  | .settled | .drained => true
  | _ => false

structure Inv (w : World) : Prop where
  consistent : ∀ c, Consistent (w.conns c) (tally w.threads c) (w.runs.count c) (c ∈ w.closers)
  nodup : w.closers.Nodup
  active : w.active = w.closers.length
  settled : w.settled = w.closers.length
  unrouted : ∀ c, w.routed ≤ c → w.conns c = {} ∧ ∀ r, tally w.threads c r = 0
  fenced : ∀ phase ∈ w.threads, phase.fenced = true → w.draining = true
  finished : ∀ phase ∈ w.threads, phase.finished = true → w.closers = []

theorem inv_start (tracker : Tracker) : Inv { tracker } where
  consistent c :=
    { inFlight := rfl
      closeFresh := fun _ => ⟨rfl, rfl, rfl⟩
      closeRunning := fun h => nomatch h
      closeDone := fun h => nomatch h
      settleFresh := fun _ => ⟨rfl, fun h => (nomatch h.1), fun _ => rfl⟩
      settleRunning := fun h => nomatch h
      settleDone := fun h => nomatch h
      runs := rfl
      held := by simp
      returned := fun h => nomatch h
      entering := fun _ => rfl
      unregistered := fun _ => rfl
      registering := fun h => absurd h (lt_irrefl 0) }
  nodup := List.nodup_nil
  active := rfl
  settled := rfl
  unrouted _ _ := ⟨rfl, fun _ => rfl⟩
  fenced _ h := nomatch h
  finished _ h := nomatch h

section Inv

variable {w w' : World} {t c : ℕ} {old new : Phase} {r : Role}

theorem roleAt_of_role (h : old.role = some (c, r)) (d : ℕ) :
    old.roleAt d = if d = c then some r else none := by
  rw [Phase.roleAt, h, Option.bind_some]
  by_cases hd : d = c
  · rw [if_pos hd, if_pos hd.symm]
  · rw [if_neg hd, if_neg fun h => hd h.symm]

theorem roleAt_of_none (h : old.role = none) (d : ℕ) : old.roleAt d = none := by
  rw [Phase.roleAt, h, Option.bind_none]

theorem Inv.routed_of_role (hw : Inv w) (ht : w.threads[t]? = some old)
    (hold : old.role = some (c, r)) : c < w.routed := by
  by_contra hle
  have hzero := (hw.unrouted c (not_lt.1 hle)).2 r
  have hpos := tally_pos ht (c := c) (r := r) (by rw [roleAt_of_role hold, if_pos rfl])
  omega

theorem tally_elsewhere (ht : w.threads[t]? = some old) (hold : old.role = some (c, r))
    (hnew : ∀ x, new.role = some x → x.1 = c) {d : ℕ} (hd : d ≠ c) :
    tally (w.threads.set t new) d = tally w.threads d := by
  have hnone : new.roleAt d = none := by
    cases hrole : new.role with
    | none => exact roleAt_of_none hrole d
    | some x =>
      rw [roleAt_of_role (c := x.1) (r := x.2) hrole, if_neg]
      rw [hnew x hrole]
      exact hd
  rw [tally_set ht, roleAt_of_role hold, if_neg hd, hnone]
  exact shift_self _ fun _ h => by cases h

/-- **One thread moves at one connection**, and nothing happens to the others. -/
theorem Inv.update (hw : Inv w) (ht : w.threads[t]? = some old) (hold : old.role = some (c, r))
    (hnew : ∀ x, new.role = some x → x.1 = c)
    (hthreads : w'.threads = w.threads.set t new) (hrouted : w'.routed = w.routed)
    (hconns : ∀ d, d ≠ c → w'.conns d = w.conns d)
    (hruns : ∀ d, d ≠ c → w'.runs.count d = w.runs.count d)
    (hclosers : ∀ d, d ≠ c → (d ∈ w'.closers ↔ d ∈ w.closers))
    (hc : Consistent (w'.conns c) (shift (tally w.threads c) (some r) (new.roleAt c))
      (w'.runs.count c) (c ∈ w'.closers))
    (hnodup : w'.closers.Nodup) (hactive : w'.active = w'.closers.length)
    (hsettled : w'.settled = w'.closers.length) (hdraining : w'.draining = w.draining)
    (hempty : w.draining = true → w.closers = [] → w'.closers = [])
    (hfenced : new.fenced = false) : Inv w' where
  consistent d := by
    by_cases hd : d = c
    · subst hd
      rw [hthreads, tally_set ht, roleAt_of_role hold, if_pos rfl]
      exact hc
    · rw [hthreads, tally_elsewhere ht hold hnew hd, hconns d hd, hruns d hd,
        propext (hclosers d hd)]
      exact hw.consistent d
  nodup := hnodup
  active := hactive
  settled := hsettled
  unrouted d hd := by
    rw [hrouted] at hd
    have hlt := hw.routed_of_role ht hold
    have hne : d ≠ c := by omega
    obtain ⟨hconn, hzero⟩ := hw.unrouted d hd
    refine ⟨(hconns d hne).trans hconn, fun r' => ?_⟩
    rw [hthreads, tally_elsewhere ht hold hnew hne]
    exact hzero r'
  fenced phase hphase := by
    rw [hthreads] at hphase
    rw [hdraining]
    rcases List.mem_or_eq_of_mem_set hphase with hmem | rfl
    · exact hw.fenced phase hmem
    · rw [hfenced]
      exact fun h => nomatch h
  finished phase hphase hfinished := by
    rw [hthreads] at hphase
    have hfence : phase.fenced = true := by
      cases phase <;> first | rfl | cases hfinished
    rcases List.mem_or_eq_of_mem_set hphase with hmem | rfl
    · exact hempty (hw.fenced phase hmem hfence) (hw.finished phase hmem hfinished)
    · exact nomatch hfenced.symm.trans hfence

/-- The connection changes, and the thread moves. -/
theorem Inv.setConn (hw : Inv w) (ht : w.threads[t]? = some old) (hold : old.role = some (c, r))
    {conn : Conn} (hnew : ∀ x, new.role = some x → x.1 = c) (hfenced : new.fenced = false)
    (hc : Consistent conn (shift (tally w.threads c) (some r) (new.roleAt c)) (w.runs.count c)
      (c ∈ w.closers)) : Inv ((w.setConn c conn).move t new) := by
  refine hw.update ht hold hnew rfl rfl (fun d hd => Function.update_of_ne hd _ _)
    (fun _ _ => rfl) (fun _ _ => Iff.rfl) ?_ hw.nodup hw.active hw.settled rfl
    (fun _ hempty => hempty) hfenced
  show Consistent (Function.update w.conns c conn c) _ _ _
  rw [Function.update_self]
  exact hc

/-- Only the thread moves. -/
theorem Inv.move (hw : Inv w) (ht : w.threads[t]? = some old) (hold : old.role = some (c, r))
    (hnew : ∀ x, new.role = some x → x.1 = c) (hfenced : new.fenced = false)
    (hc : Consistent (w.conns c) (shift (tally w.threads c) (some r) (new.roleAt c))
      (w.runs.count c) (c ∈ w.closers)) : Inv (w.move t new) :=
  hw.update ht hold hnew rfl rfl (fun _ _ => rfl) (fun _ _ => rfl) (fun _ _ => Iff.rfl) hc hw.nodup
    hw.active hw.settled rfl (fun _ hempty => hempty) hfenced

theorem role_pos (ht : w.threads[t]? = some old) (hold : old.role = some (c, r)) :
    0 < tally w.threads c r :=
  tally_pos ht (by rw [roleAt_of_role hold, if_pos rfl])

/-- A thread that stays at its point of the connection. -/
theorem Inv.stay (hw : Inv w) (ht : w.threads[t]? = some old) (hold : old.role = some (c, r))
    (hnew : new.role = some (c, r)) (hfenced : new.fenced = false) : Inv (w.move t new) := by
  refine hw.move ht hold (fun x hx => ?_) hfenced ?_
  · rw [hnew] at hx
    rw [← Option.some.inj hx]
  · rw [roleAt_of_role hnew, if_pos rfl, shift_self]
    · exact hw.consistent c
    · intro r' hr'
      rw [← Option.some.inj hr']
      exact role_pos ht hold

theorem role_returned (c : ℕ) (x : ℕ × Role) (hx : Phase.returned.role = some x) : x.1 = c := by
  cases hx

theorem Inv.register (hw : Inv w) (ht : w.threads[t]? = some (.register c))
    (hdraining : w.draining = false) :
    Inv (((w.register c).setConn c
      { w.conns c with registered := true, returned := true }).move t .returned) := by
  have hpos := role_pos ht rfl
  have hc := hw.consistent c
  have hnew : c ∉ w.closers := by
    rw [hc.held, (hc.registering hpos).2.2.1]
    simp
  refine hw.update ht rfl (role_returned c) rfl rfl
    (fun d hd => Function.update_of_ne hd _ _) (fun _ _ => rfl) (fun d hd => ?_) ?_ ?_ ?_ ?_ rfl
    (fun hdraining' => ?_) rfl
  · show d ∈ w.closers.insert c ↔ _
    rw [List.mem_insert_iff]
    exact or_iff_right hd
  · show Consistent (Function.update w.conns c _ c) _ _ (c ∈ w.closers.insert c)
    rw [Function.update_self, propext (iff_true_intro (List.mem_insert_self (a := c)))]
    exact hc.register hpos
  · exact hw.nodup.insert
  · show w.active + 1 = ((w.closers.insert c).length : Int)
    rw [hw.active, List.insert_of_not_mem hnew]
    rfl
  · show w.settled + 1 = ((w.closers.insert c).length : Int)
    rw [hw.settled, List.insert_of_not_mem hnew]
    rfl
  · exact nomatch hdraining.symm.trans hdraining'

theorem After.role_release (after : After) (c : ℕ) :
    (Phase.release c after).role = some (c, after.releases) := by
  cases after <;> rfl

theorem After.role_settle (after : After) (c : ℕ) :
    (Phase.settle c after).role = some (c, after.settles) := by
  cases after <;> rfl

theorem mem_release (hw : Inv w) (d : ℕ) :
    d ∈ (w.release c).closers ↔ d ≠ c ∧ d ∈ w.closers := by
  unfold World.release
  split_ifs with hc
  · exact hw.nodup.mem_erase_iff
  · refine (and_iff_right_of_imp fun hd => ?_).symm
    rintro rfl
    exact hc hd

/-- The tracker forgets the connection, if it holds it. -/
theorem release_counts (hw : Inv w) (c : ℕ) : (w.release c).closers.Nodup ∧
    (w.release c).active = (w.release c).closers.length ∧
    (w.release c).settled = (w.release c).closers.length := by
  have hactive := hw.active
  have hsettled := hw.settled
  unfold World.release
  split_ifs with hc
  · have hlength := List.length_erase_of_mem hc
    have hpos := List.length_pos_of_mem hc
    refine ⟨hw.nodup.erase c, ?_, ?_⟩
    · show w.active - 1 = ((w.closers.erase c).length : Int)
      omega
    · show w.settled - 1 = ((w.closers.erase c).length : Int)
      omega
  · exact ⟨hw.nodup, hactive, hsettled⟩

/-- **`onSettled` runs**: the tracker forgets the connection. -/
theorem Inv.release (hw : Inv w) {after : After} (ht : w.threads[t]? = some (.release c after)) :
    Inv (w.releases t c after) := by
  have hold := after.role_release c
  have hc := (hw.consistent c).release after (role_pos ht hold)
  obtain ⟨hnodup, hactive, hsettled⟩ := release_counts hw c
  have hsame : (w.release c).conns = w.conns ∧ (w.release c).threads = w.threads ∧
      (w.release c).routed = w.routed ∧ (w.release c).runs = w.runs ∧
      (w.release c).draining = w.draining := by
    unfold World.release
    split_ifs
    · exact ⟨rfl, rfl, rfl, rfl, rfl⟩
    · exact ⟨rfl, rfl, rfl, rfl, rfl⟩
  obtain ⟨hconns, hthreads, hrouted, hruns, hdraining⟩ := hsame
  have heq : w.releases t c after = (({ w.release c with runs := c :: w.runs } : World).setConn c
      ((w.conns c).releases after)).move t .returned := by
    cases after <;> rfl
  rw [heq]
  refine hw.update ht hold (role_returned c) ?_ hrouted (fun d hd => ?_) (fun d hd => ?_)
    (fun d hd => ?_) ?_ hnodup hactive hsettled hdraining (fun _ hempty => ?_) rfl
  · show (w.release c).threads.set t .returned = _
    rw [hthreads]
  · show Function.update (w.release c).conns c _ d = _
    rw [Function.update_of_ne hd, hconns]
  · exact List.count_cons_of_ne (Ne.symm hd)
  · exact (mem_release hw d).trans (and_iff_right hd)
  · show Consistent (Function.update (w.release c).conns c _ c) _ ((c :: w.runs).count c)
      (c ∈ (w.release c).closers)
    rw [Function.update_self, List.count_cons_self,
      propext (iff_false_intro fun hmem => ((mem_release hw c).1 hmem).1 rfl)]
    exact hc
  · show (w.release c).closers = []
    exact List.eq_nil_iff_forall_not_mem.2 fun d hd => by
      have := ((mem_release hw d).1 hd).2
      rw [hempty] at this
      cases this

/-- A thread that is at no connection moves. -/
theorem Inv.plain (hw : Inv w) (ht : w.threads[t]? = some old) (hold : old.role = none)
    (hnew : new.role = none) {draining : Bool} (hdraining : w.draining = true → draining = true)
    (hfenced : new.fenced = true → draining = true) (hfinished : new.finished = true →
      w.closers = []) : Inv ({ w with draining }.move t new) := by
  have htally : ∀ c, tally (w.threads.set t new) c = tally w.threads c := fun c => by
    rw [tally_set ht, roleAt_of_none hold, roleAt_of_none hnew]
    exact shift_self _ fun _ h => by cases h
  exact
    { consistent := fun c => by
        show Consistent (w.conns c) (tally (w.threads.set t new) c) _ _
        rw [htally]
        exact hw.consistent c
      nodup := hw.nodup
      active := hw.active
      settled := hw.settled
      unrouted := fun c hc => by
        refine ⟨(hw.unrouted c hc).1, fun r => ?_⟩
        show tally (w.threads.set t new) c r = 0
        rw [htally]
        exact (hw.unrouted c hc).2 r
      fenced := fun phase hphase => by
        rcases List.mem_or_eq_of_mem_set hphase with hmem | rfl
        · exact fun h => hdraining (hw.fenced phase hmem h)
        · exact hfenced
      finished := fun phase hphase => by
        rcases List.mem_or_eq_of_mem_set hphase with hmem | rfl
        · exact hw.finished phase hmem
        · exact hfinished }

/-- Threads start. -/
theorem Inv.spawn (hw : Inv w) {phases : List Phase}
    (hc : ∀ c, Consistent (w.conns c) (tally (w.threads ++ phases) c) (w.runs.count c)
      (c ∈ w.closers))
    (hrouted : ∀ c, w.routed ≤ c → ∀ r, tally phases c r = 0)
    (hfenced : ∀ phase ∈ phases, phase.fenced = false ∧ phase.finished = false) :
    Inv (w.spawn phases) where
  consistent := hc
  nodup := hw.nodup
  active := hw.active
  settled := hw.settled
  unrouted c hle := by
    refine ⟨(hw.unrouted c hle).1, fun r => ?_⟩
    show tally (w.threads ++ phases) c r = 0
    rw [tally_append, (hw.unrouted c hle).2 r, hrouted c hle r]
  fenced phase hphase h := by
    rcases List.mem_append.1 hphase with hmem | hmem
    · exact hw.fenced phase hmem h
    · exact nomatch (hfenced phase hmem).1.symm.trans h
  finished phase hphase h := by
    rcases List.mem_append.1 hphase with hmem | hmem
    · exact hw.finished phase hmem h
    · exact nomatch (hfenced phase hmem).2.symm.trans h

/-! ## One event -/

theorem counted_fields (w : World) (user : String) (op : Op) (n : Int) :
    ∃ upload download, w.count user op n = { w with upload, download } := by
  cases op <;> exact ⟨_, _, rfl⟩

theorem Inv.counters (hw : Inv w) (upload download : String → Int64) :
    Inv { w with upload, download } :=
  ⟨hw.consistent, hw.nodup, hw.active, hw.settled, hw.unrouted, hw.fenced, hw.finished⟩

theorem at_connection {phase : Phase} (hphase : phase.role = some (c, r)) (x : ℕ × Role)
    (hx : phase.role = some x) : x.1 = c := by
  rw [hphase] at hx
  rw [← Option.some.inj hx]

theorem tally_close (closers : List ℕ) (c : ℕ) (r : Role) :
    tally (closers.map (.close · false)) c r = if r = .call then closers.count c else 0 := by
  induction closers with
  | nil => simp [tally]
  | cons d closers ih =>
    have hrole : Phase.roleAt c (.close d false) = if c = d then some .call else none :=
      roleAt_of_role rfl c
    rw [List.map_cons, tally, List.countP_cons, ← tally, ih, hrole]
    by_cases hcd : c = d
    · subst hcd
      by_cases hr : r = .call
      · simp [hr]
      · simp [hr, Ne.symm hr]
    · have hdc : ¬ d = c := fun h => hcd h.symm
      by_cases hr : r = .call
      · simp [hr, hcd, hdc]
      · simp [hr, hcd]

/-- **`Drain` fences the registration** and closes what the tracker holds. -/
theorem Inv.drain (hw : Inv w) (ht : w.threads[t]? = some .drain) :
    Inv (({ w with draining := true }.move t .wait).spawn (w.closers.map (.close · false))) := by
  have hwait : Inv ({ w with draining := true }.move t .wait) :=
    hw.plain ht rfl rfl (fun _ => rfl) (fun _ => rfl) fun h => by cases h
  have hclosers : ∀ c r, tally (({ w with draining := true }.move t .wait).threads ++
      w.closers.map (.close · false)) c r =
      tally ({ w with draining := true }.move t .wait).threads c r +
        if r = .call then w.closers.count c else 0 := fun c r => by
    rw [tally_append, tally_close]
  refine hwait.spawn (fun c => ?_) (fun c hc r => ?_) fun phase hphase => ?_
  · have hconsistent := hwait.consistent c
    by_cases hc : c ∈ w.closers
    · refine hconsistent.close ?_ (w.closers.count c) fun r => hclosers c r
      by_contra hregister
      have hheld := (hconsistent.registering (Nat.pos_of_ne_zero hregister)).2.2.1
      have hregistered := (hconsistent.held.1 hc).1
      exact nomatch hheld.symm.trans hregistered
    · have hsame : tally (({ w with draining := true }.move t .wait).threads ++
          w.closers.map (.close · false)) c =
          tally ({ w with draining := true }.move t .wait).threads c := by
        funext r
        rw [hclosers, List.count_eq_zero_of_not_mem hc, ite_self, Nat.add_zero]
      rw [hsame]
      exact hconsistent
  · have hconn := (hw.unrouted c hc).1
    have hheld := (hw.consistent c).held
    rw [hconn] at hheld
    have hnot : c ∉ w.closers := fun hmem => nomatch (hheld.1 hmem).1
    rw [tally_close, List.count_eq_zero_of_not_mem hnot, ite_self]
  · obtain ⟨c, -, rfl⟩ := List.mem_map.1 hphase
    exact ⟨rfl, rfl⟩

/-- The close of a connection. -/
theorem Inv.close (hw : Inv w) {routes : Bool} (ht : w.threads[t]? = some (.close c routes))
    (n : Int) (failed : Bool) : Inv (w.advance t n failed (.close c routes)) := by
  have hc := hw.consistent c
  have hpos := role_pos ht rfl
  simp only [World.advance]
  cases honce : (w.conns c).closeOnce with
  | fresh =>
    exact hw.setConn ht rfl (at_connection rfl) rfl
      (by rw [roleAt_of_role (c := c) (r := .start) rfl, if_pos rfl]; exact hc.closeOnce hpos honce)
  | running => exact hw
  | done => exact hw.setConn ht rfl (role_returned c) rfl (hc.closeReturns honce routes)

theorem Inv.advance (hw : Inv w) (ht : w.threads[t]? = some old) (n : Int) (failed : Bool) :
    Inv (w.advance t n failed old) := by
  cases old with
  | register c =>
    have hpos := role_pos ht rfl
    simp only [World.advance]
    cases hdraining : w.draining with
    | true =>
      exact hw.move ht rfl (at_connection rfl) rfl (by
        rw [roleAt_of_role (c := c) (r := .call) rfl, if_pos rfl]
        exact (hw.consistent c).refuse hpos)
    | false => exact hw.register ht hdraining
  | close c routes => exact hw.close ht n failed
  | startClose c routes =>
    refine hw.setConn ht rfl (at_connection rfl) rfl ?_
    rw [roleAt_of_role (c := c) (r := .ending) rfl, if_pos rfl]
    exact (hw.consistent c).startClose (role_pos ht rfl)
  | innerClose c routes => exact hw.stay ht rfl rfl rfl
  | finishClose c routes =>
    have hc := (hw.consistent c).finishClose (role_pos ht rfl) routes
    simp only [World.advance]
    by_cases hsettles : (w.conns c).finishClose.2 = true
    · rw [if_pos hsettles, if_pos hsettles] at hc
      simp only [hsettles, if_true]
      refine hw.setConn ht rfl (at_connection rfl) rfl ?_
      rw [roleAt_of_role (c := c) (r := .settleClose) rfl, if_pos rfl]
      exact hc
    · rw [if_neg hsettles, if_neg hsettles] at hc
      simp only [hsettles]
      exact hw.setConn ht rfl (role_returned c) rfl hc
  | begin c op =>
    have hc := hw.consistent c
    simp only [World.advance]
    cases hbegin : (w.conns c).begin with
    | none => exact hw.move ht rfl (role_returned c) rfl hc.refused
    | some conn =>
      refine hw.setConn ht rfl (at_connection rfl) rfl ?_
      rw [roleAt_of_role (c := c) (r := .inside) rfl, if_pos rfl]
      exact hc.begin (role_pos ht rfl) hbegin
  | inner c op =>
    simp only [World.advance]
    cases World.counted (w.conns c).kind op n failed with
    | none => exact hw.stay ht rfl rfl rfl
    | some n => exact hw.stay ht rfl rfl rfl
  | count c op n =>
    obtain ⟨upload, download, hcount⟩ := counted_fields w (w.conns c).user op n
    show Inv ((w.count (w.conns c).user op n).move t (.endOperation c))
    rw [hcount]
    exact (hw.counters upload download).stay ht rfl rfl rfl
  | endOperation c =>
    have hc := (hw.consistent c).endOperation (role_pos ht rfl)
    show Inv ((w.setConn c (w.conns c).endOperation.1).move t
      (if (w.conns c).endOperation.2 then .settle c .operation else .returned))
    by_cases hsettles : (w.conns c).endOperation.2 = true
    · rw [if_pos hsettles] at hc ⊢
      refine hw.setConn ht rfl (at_connection rfl) rfl ?_
      rw [roleAt_of_role (c := c) (r := .settleOperation) rfl, if_pos rfl]
      exact hc
    · rw [if_neg hsettles] at hc ⊢
      exact hw.setConn ht rfl (role_returned c) rfl hc
  | settle c after =>
    have hc := hw.consistent c
    have hpos := role_pos ht (after.role_settle c)
    have hfresh : (w.conns c).settle = .fresh := by
      refine hc.settle_of_settler ?_
      cases after with
      | operation => exact Nat.add_pos_left hpos _
      | close routes => exact Nat.add_pos_right _ hpos
    simp only [World.advance]
    simp only [hfresh]
    refine hw.setConn ht (after.role_settle c) (at_connection (after.role_release c)) rfl ?_
    rw [roleAt_of_role (after.role_release c), if_pos rfl]
    exact hc.settle after hpos
  | release c after => exact hw.release ht
  | drain => exact hw.drain ht
  | wait =>
    simp only [World.advance]
    split_ifs with hzero
    · refine hw.plain ht rfl rfl (fun h => h) (fun _ => ?_) fun _ => ?_
      · exact hw.fenced _ (List.mem_of_getElem? ht) rfl
      · rw [hw.settled] at hzero
        exact List.length_eq_zero_iff.1 (by omega)
    · exact hw
  | settled =>
    exact hw.plain ht rfl rfl (fun h => h) (fun _ => hw.fenced _ (List.mem_of_getElem? ht) rfl)
      fun _ => hw.finished _ (List.mem_of_getElem? ht) rfl
  | drained => exact hw
  | expired => exact hw
  | returned => exact hw

theorem tally_singleton (phase : Phase) (c : ℕ) (r : Role) :
    tally [phase] c r = if phase.roleAt c = some r then 1 else 0 := by
  simp [tally, List.countP_cons]

theorem tally_start (threads : List Phase) (phase : Phase) (c : ℕ) :
    tally (threads ++ [phase]) c = shift (tally threads c) none (phase.roleAt c) := by
  funext r
  rw [tally_append, tally_singleton]
  rfl

theorem shift_none (k : Role → ℕ) : shift k none none = k := shift_self k fun _ h => by cases h

/-- A thread starts at a connection. -/
theorem Inv.start (hw : Inv w) {phase : Phase} (hrole : phase.role = some (c, r))
    (hrouted : c < w.routed) (hc : Consistent (w.conns c) (shift (tally w.threads c) none (some r))
      (w.runs.count c) (c ∈ w.closers)) (hfenced : phase.fenced = false) :
    Inv (w.spawn [phase]) := by
  refine hw.spawn (fun d => ?_) (fun d hd r' => ?_) fun phase' hphase => ?_
  · rw [tally_start, roleAt_of_role hrole]
    by_cases hd : d = c
    · rw [if_pos hd, hd]
      exact hc
    · rw [if_neg hd, shift_none]
      exact hw.consistent d
  · have hne : d ≠ c := by omega
    rw [tally_singleton, roleAt_of_role hrole, if_neg hne, if_neg fun h => by cases h]
  · obtain rfl := List.mem_singleton.1 hphase
    refine ⟨hfenced, ?_⟩
    cases phase' <;> first | rfl | cases hfenced

theorem Inv.routed_of_returned (hw : Inv w) (hreturned : (w.conns c).returned = true) :
    c < w.routed := by
  by_contra hle
  rw [(hw.unrouted c (not_lt.1 hle)).1] at hreturned
  cases hreturned

/-- A connection that is wrapped. -/
theorem consistent_new (kind : Kind) (user : String) {k : Role → ℕ} (hk : ∀ r, k r = 0) {runs : ℕ}
    (hruns : runs = 0) {held : Prop} (hheld : ¬ held) :
    Consistent { kind, user } (shift k none (some .register)) runs held where
  inFlight := by
    show (0 : Int) = ((k .inside : ℕ) : Int)
    rw [hk]
    rfl
  closeFresh _ := ⟨by
    show k .start + k .ending + k .settleClose + k .releaseClose = 0
    simp only [hk], rfl, rfl⟩
  closeRunning h := nomatch h
  closeDone h := nomatch h
  settleFresh _ := ⟨by
    show k .releaseOperation + k .releaseClose = 0
    simp only [hk], fun h => (nomatch h.1), fun _ => by
    show k .settleOperation + k .settleClose = 0
    simp only [hk]⟩
  settleRunning h := nomatch h
  settleDone h := nomatch h
  runs := by rw [hruns]; rfl
  held := iff_of_false hheld fun h => nomatch h.1
  returned h := nomatch h
  entering _ := hk .enter
  unregistered _ := hk .inside
  registering _ := ⟨by
    show k .register + 1 = 1
    rw [hk], hk .call, rfl, rfl, rfl⟩

theorem Inv.route (hw : Inv w) (kind : Kind) (user : String) :
    Inv ({ w.setConn w.routed { kind, user } with routed := w.routed + 1 }.spawn
      [.register w.routed]) := by
  obtain ⟨hconn, hzero⟩ := hw.unrouted w.routed le_rfl
  have hold := hw.consistent w.routed
  rw [hconn] at hold
  have hheld : w.routed ∉ w.closers := fun hmem => nomatch (hold.held.1 hmem).1
  have hnew := consistent_new kind user hzero (hold.runs.trans (if_neg (by decide))) hheld
  have hrole : ∀ d, Phase.roleAt d (.register w.routed) =
      if d = w.routed then some .register else none := roleAt_of_role rfl
  exact
    { consistent := fun d => by
        show Consistent (Function.update w.conns w.routed _ d)
          (tally (w.threads ++ [.register w.routed]) d) (w.runs.count d) (d ∈ w.closers)
        rw [tally_start, hrole]
        by_cases hd : d = w.routed
        · subst hd
          rw [if_pos rfl, Function.update_self]
          exact hnew
        · rw [if_neg hd, shift_none, Function.update_of_ne hd]
          exact hw.consistent d
      nodup := hw.nodup
      active := hw.active
      settled := hw.settled
      unrouted := fun d hd => by
        have hlt : w.routed + 1 ≤ d := hd
        have hne : d ≠ w.routed := by omega
        obtain ⟨hconn, hzero⟩ := hw.unrouted d (by omega)
        refine ⟨(Function.update_of_ne hne _ _).trans hconn, fun r => ?_⟩
        show tally (w.threads ++ [.register w.routed]) d r = 0
        rw [tally_start, hrole, if_neg hne, shift_none]
        exact hzero r
      fenced := fun phase hphase h => by
        rcases List.mem_append.1 hphase with hmem | hmem
        · exact hw.fenced phase hmem h
        · rw [List.mem_singleton.1 hmem] at h
          cases h
      finished := fun phase hphase h => by
        rcases List.mem_append.1 hphase with hmem | hmem
        · exact hw.finished phase hmem h
        · rw [List.mem_singleton.1 hmem] at h
          cases h }

/-- **One event.** -/
theorem Inv.step (hw : Inv w) (e : Event) : Inv (w.step e) := by
  cases e with
  | route kind user =>
    simp only [World.step]
    split_ifs
    · exact hw.route kind user
    · exact hw
  | operation c op =>
    simp only [World.step]
    split_ifs with hreturned
    · exact hw.start (r := .enter) rfl (hw.routed_of_returned hreturned)
        ((hw.consistent c).operation hreturned) rfl
    · exact hw
  | close c =>
    simp only [World.step]
    split_ifs with hreturned
    · have hc := hw.consistent c
      refine hw.start (r := .call) rfl (hw.routed_of_returned hreturned) (hc.close ?_ 1 ?_) rfl
      · by_contra hregister
        have := (hc.registering (Nat.pos_of_ne_zero hregister)).2.2.2.1
        exact nomatch this.symm.trans hreturned
      · intro r
        unfold shift
        simp only [reduceCtorEq, if_false, Nat.sub_zero, Option.some.injEq, eq_comm]
    · exact hw
  | drain =>
    refine hw.spawn (fun c => ?_) (fun c _ r => ?_) fun phase hphase => ?_
    · rw [tally_start, roleAt_of_none rfl, shift_none]
      exact hw.consistent c
    · rw [tally_singleton, roleAt_of_none rfl, if_neg fun h => by cases h]
    · rw [List.mem_singleton.1 hphase]
      exact ⟨rfl, rfl⟩
  | step t n failed =>
    simp only [World.step]
    cases ht : w.threads[t]? with
    | none => exact hw
    | some phase => exact hw.advance ht n failed
  | expire t =>
    simp only [World.step]
    split_ifs with ht
    · have hfenced : w.draining = true := by
        rcases ht with ht | ht
        · exact hw.fenced _ (List.mem_of_getElem? ht) rfl
        · exact hw.fenced _ (List.mem_of_getElem? ht) rfl
      rcases ht with ht | ht
      · exact hw.plain ht rfl rfl (fun h => h) (fun _ => hfenced) fun h => by cases h
      · exact hw.plain ht rfl rfl (fun h => h) (fun _ => hfenced) fun h => by cases h
    · exact hw

theorem Inv.runs (hw : Inv w) (h : Runs w w') : Inv w' := by
  induction h with
  | refl => exact hw
  | step e _ ih => exact ih.step e

/-! ## After a drain -/

/-- Registration is fenced, and everything that was registered is settled. -/
def World.Quiet (w : World) : Prop := w.draining = true ∧ w.closers = []

/-- No operation is in flight. -/
theorem Inv.not_inside (hw : Inv w) (hquiet : w.Quiet) (c : ℕ) : tally w.threads c .inside = 0 := by
  have hc := hw.consistent c
  cases hregistered : (w.conns c).registered with
  | false => exact hc.unregistered hregistered
  | true =>
    have hdone : (w.conns c).settle = .done := by
      by_contra hne
      have hheld := hc.held.2 ⟨hregistered, hne⟩
      rw [hquiet.2] at hheld
      cases hheld
    exact (hc.settleDone hdone).2.2.2

/-- The registration stays fenced, and no counter changes. -/
structure Still (w w' : World) : Prop where
  quiet : w'.Quiet
  tracker : w'.tracker = w.tracker
  upload : w'.upload = w.upload
  download : w'.download = w.download

theorem still_release (hquiet : w.Quiet) : w.release c = w := by
  have hnot : c ∉ w.closers := by
    rw [hquiet.2]
    exact List.not_mem_nil
  rw [World.release, if_neg hnot]

/-- **Nothing is counted after a drain.** -/
theorem Inv.still_advance (hw : Inv w) (hquiet : w.Quiet) (ht : w.threads[t]? = some old) (n : Int)
    (failed : Bool) : Still w (w.advance t n failed old) := by
  cases old with
  | register c =>
    simp only [World.advance, hquiet.1, if_true]
    exact ⟨hquiet, rfl, rfl, rfl⟩
  | close c routes =>
    simp only [World.advance]
    split
    · exact ⟨hquiet, rfl, rfl, rfl⟩
    · exact ⟨hquiet, rfl, rfl, rfl⟩
    · exact ⟨hquiet, rfl, rfl, rfl⟩
  | startClose c routes => exact ⟨hquiet, rfl, rfl, rfl⟩
  | innerClose c routes => exact ⟨hquiet, rfl, rfl, rfl⟩
  | finishClose c routes =>
    simp only [World.advance]
    split_ifs
    · exact ⟨hquiet, rfl, rfl, rfl⟩
    · exact ⟨hquiet, rfl, rfl, rfl⟩
  | begin c op =>
    simp only [World.advance]
    split
    · exact ⟨hquiet, rfl, rfl, rfl⟩
    · exact ⟨hquiet, rfl, rfl, rfl⟩
  | inner c op =>
    simp only [World.advance]
    split
    · exact ⟨hquiet, rfl, rfl, rfl⟩
    · exact ⟨hquiet, rfl, rfl, rfl⟩
  | count c op n =>
    -- No thread is that far.
    have hpos : 0 < tally w.threads c .inside := role_pos ht rfl
    rw [hw.not_inside hquiet] at hpos
    exact absurd hpos (lt_irrefl 0)
  | endOperation c => exact ⟨hquiet, rfl, rfl, rfl⟩
  | settle c after =>
    simp only [World.advance]
    split
    · exact ⟨hquiet, rfl, rfl, rfl⟩
    · exact ⟨hquiet, rfl, rfl, rfl⟩
    · split
      · exact ⟨hquiet, rfl, rfl, rfl⟩
      · exact ⟨hquiet, rfl, rfl, rfl⟩
  | release c after =>
    simp only [World.advance, World.releases, still_release hquiet]
    split
    · exact ⟨hquiet, rfl, rfl, rfl⟩
    · exact ⟨hquiet, rfl, rfl, rfl⟩
  | drain => exact ⟨⟨rfl, hquiet.2⟩, rfl, rfl, rfl⟩
  | wait =>
    simp only [World.advance]
    split_ifs
    · exact ⟨hquiet, rfl, rfl, rfl⟩
    · exact ⟨hquiet, rfl, rfl, rfl⟩
  | settled => exact ⟨hquiet, rfl, rfl, rfl⟩
  | drained => exact ⟨hquiet, rfl, rfl, rfl⟩
  | expired => exact ⟨hquiet, rfl, rfl, rfl⟩
  | returned => exact ⟨hquiet, rfl, rfl, rfl⟩

theorem Inv.still_step (hw : Inv w) (hquiet : w.Quiet) (e : Event) : Still w (w.step e) := by
  cases e with
  | step t n failed =>
    simp only [World.step]
    cases ht : w.threads[t]? with
    | none => exact ⟨hquiet, rfl, rfl, rfl⟩
    | some phase => exact hw.still_advance hquiet ht n failed
  | drain => exact ⟨hquiet, rfl, rfl, rfl⟩
  | _ =>
    simp only [World.step]
    split_ifs
    · exact ⟨hquiet, rfl, rfl, rfl⟩
    · exact ⟨hquiet, rfl, rfl, rfl⟩

theorem Inv.still_runs (hw : Inv w) (hquiet : w.Quiet) (h : Runs w w') : Still w w' := by
  induction h with
  | refl => exact ⟨hquiet, rfl, rfl, rfl⟩
  | step e h ih =>
    have hstill := (hw.runs h).still_step ih.quiet e
    exact ⟨hstill.quiet, hstill.tracker.trans ih.tracker, hstill.upload.trans ih.upload,
      hstill.download.trans ih.download⟩

/-! ## Every run -/

/-- The connections that were registered and not settled since. -/
def World.unsettled (w : World) : List ℕ :=
  (List.range w.routed).filter fun c => (w.conns c).registered && !w.runs.contains c

theorem Inv.mem_closers (hw : Inv w) (c : ℕ) : c ∈ w.closers ↔ c ∈ w.unsettled := by
  have hc := hw.consistent c
  have hruns : c ∈ w.runs ↔ (w.conns c).settle = .done := by
    rw [← List.count_pos_iff, hc.runs]
    split_ifs with h
    · exact iff_of_true one_pos h
    · exact iff_of_false (lt_irrefl 0) h
  have hrouted : (w.conns c).registered = true → c < w.routed := by
    intro hregistered
    by_contra hle
    rw [(hw.unrouted c (not_lt.1 hle)).1] at hregistered
    cases hregistered
  rw [hc.held]
  simp only [World.unsettled, List.mem_filter, List.mem_range, Bool.and_eq_true,
    Bool.not_eq_true', List.contains_eq_mem, decide_eq_false_iff_not, hruns]
  exact ⟨fun h => ⟨hrouted h.1, h⟩, fun h => h.2⟩

theorem Inv.closers_perm (hw : Inv w) : w.closers.Perm w.unsettled :=
  (List.perm_ext_iff_of_nodup hw.nodup (List.nodup_range.filter _)).2 hw.mem_closers

theorem tally_eq_zero_iff {threads : List Phase} :
    tally threads c r = 0 ↔ ∀ phase ∈ threads, phase.roleAt c ≠ some r := by
  simp [tally, List.countP_eq_zero]

/-- The thread is in an operation on the connection. -/
def Phase.Operates (c : ℕ) (phase : Phase) : Prop :=
  phase.roleAt c = some .inside ∨ phase.roleAt c = some .settleOperation ∨
    phase.roleAt c = some .releaseOperation

/-- Where the close and all operations have returned, the connection is settled. -/
theorem Inv.settled_of_returned (hw : Inv w) (honce : (w.conns c).closeOnce = .done)
    (hreturned : ∀ phase ∈ w.threads, ¬ phase.Operates c) : w.runs.count c = 1 := by
  have hc := hw.consistent c
  obtain ⟨hclosers, -, hclosed⟩ := hc.closeDone honce
  have hinside : tally w.threads c .inside = 0 :=
    tally_eq_zero_iff.2 fun phase hphase h => hreturned phase hphase (.inl h)
  have hsettles : tally w.threads c .settleOperation = 0 :=
    tally_eq_zero_iff.2 fun phase hphase h => hreturned phase hphase (.inr (.inl h))
  have hreleases : tally w.threads c .releaseOperation = 0 :=
    tally_eq_zero_iff.2 fun phase hphase h => hreturned phase hphase (.inr (.inr h))
  rw [hc.runs]
  cases hsettle : (w.conns c).settle with
  | fresh =>
    have := (hc.settleFresh hsettle).2.1 ⟨hclosed, hinside⟩
    omega
  | running =>
    have := (hc.settleRunning hsettle).1
    omega
  | done => rfl

end Inv

/-- **The tracker settles.** In every run the number of active connections is that of the closers
and of the registered connections that are not settled. `onSettled` runs at most once for a
connection, only when it is closed and nothing is in flight, and has run when its close and all
operations on it have returned. After a drain that returned without error no connection, old or
new, changes a counter. -/
theorem tracker_settles {tracker : Tracker} {w : World} (h : Runs { tracker } w) :
    (w.active = w.closers.length ∧ w.closers.Perm w.unsettled) ∧
    (∀ c, w.runs.count c ≤ 1) ∧
    (∀ c after, .release c after ∈ w.threads → (w.conns c).closed = true ∧
      ∀ phase ∈ w.threads, phase.roleAt c ≠ some .inside) ∧
    (∀ c, (w.conns c).closeOnce = .done → (∀ phase ∈ w.threads, ¬ phase.Operates c) →
      w.runs.count c = 1) ∧
    (.drained ∈ w.threads → ∀ w', Runs w w' → w'.upload = w.upload ∧ w'.download = w.download ∧
      ∀ observedAt, w'.sample observedAt = w.sample observedAt) := by
  have hw : Inv w := (inv_start tracker).runs h
  refine ⟨⟨hw.active, hw.closers_perm⟩, fun c => ?_, fun c after hmem => ?_,
    fun c => hw.settled_of_returned, fun hmem w' hruns => ?_⟩
  · rw [(hw.consistent c).runs]
    split_ifs <;> decide
  · obtain ⟨t, ht⟩ := List.mem_iff_getElem?.1 hmem
    have hpos := role_pos ht (after.role_release c)
    obtain ⟨-, -, -, hclosed, hinside⟩ := (hw.consistent c).settle_of_releaser (by
      cases after with
      | operation => exact Nat.add_pos_left hpos _
      | close routes => exact Nat.add_pos_right _ hpos)
    exact ⟨hclosed, tally_eq_zero_iff.1 hinside⟩
  · have hquiet : w.Quiet := ⟨hw.fenced _ hmem rfl, hw.finished _ hmem rfl⟩
    have hstill := hw.still_runs hquiet hruns
    refine ⟨hstill.upload, hstill.download, fun observedAt => ?_⟩
    rw [World.sample, World.sample, hstill.tracker, hstill.upload, hstill.download]

/-! ## A read that ends after the close -/

def exampleEvents : List Event :=
  [.route .stream "member", .step 0 0 false, .operation 0 .read, .step 1 0 false, .step 1 5 false,
    .drain, .step 2 0 false, .step 3 0 false, .step 3 0 false, .step 3 0 false, .step 3 0 false,
    .step 1 0 false, .step 1 0 false, .step 1 0 false, .step 1 0 false, .step 2 0 false,
    .step 2 0 false]

def exampleTracker : Tracker := newTracker ["member"] "runtime" 0

theorem runs_foldl {w₀ w : World} (h : Runs w₀ w) (es : List Event) :
    Runs w₀ (es.foldl World.step w) := by
  induction es generalizing w with
  | nil => exact h
  | cons e es ih => exact ih (h.step e)

def drainedWorld : World := exampleEvents.foldl World.step { tracker := exampleTracker }

/-- The five bytes are there, and stay. -/
theorem drainedWorld_final : drainedWorld.upload "member" = 5 ∧
    ∀ w', Runs drainedWorld w' → w'.upload "member" = 5 := by
  have hdrained : Phase.drained ∈ drainedWorld.threads := by decide +kernel
  have hupload : drainedWorld.upload "member" = 5 := by decide +kernel
  obtain ⟨-, -, -, -, hfinal⟩ := tracker_settles (runs_foldl .refl exampleEvents :
    Runs { tracker := exampleTracker } drainedWorld)
  refine ⟨hupload, fun w' hruns => ?_⟩
  rw [(hfinal hdrained w' hruns).1]
  exact hupload

end Bifurcation.Daemon.Settlement
