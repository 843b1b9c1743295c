import Bifurcation.Panel.MachineCalls

/-!
# Session and binding fencing

Requests of old connections and old installations compete with new ones over three counters of
a machine's row: the binding epoch, the session epoch and the status sequence. A run serves any
calls in any order and keeps a log of those that succeeded, newest first.

**The invariant** (`Fenced`). Every logged installation-checked request is at or below the
row's binding epoch, and at it only for the installation that is enrolled. The statuses written
since the last rebind, newest first, decrease strictly in (session epoch, sequence), are at or
below the row's counters, and the newest of them is the one stored.

Main result: `machines_fenced`.
-/

namespace Bifurcation.Panel

/-! ## Runs -/

/-- The database and the calls served so far, newest first. -/
structure Served where
  db : Database
  log : List Entry

def Served.step (codec : Codec) (w : Served) (event : Int × Call) : Served :=
  match perform codec event.1 w.db event.2 with
  | .ok (entry, db) => ⟨db, entry :: w.log⟩
  | .error _ => w

/-- Serve calls, from the empty database on. -/
def serve (codec : Codec) (events : List (Int × Call)) : Served :=
  events.foldl (Served.step codec) ⟨.empty, []⟩

/-! ## What is fenced -/

/-- Binding epoch, session epoch and status sequence, in lexicographic order. -/
def MachineRow.fence (row : MachineRow) : ℤ ×ₗ ℤ ×ₗ ℤ :=
  toLex (row.bindingEpoch, toLex (row.sessionEpoch, row.statusSequence))

/-- The machine a bind, a rebind, a token reset, a removal or a status write is about. -/
def Entry.advances : Entry → Option String
  | .bound id _ _ => some id
  | .status id _ _ _ _ _ => some id
  | .rebound id => some id
  | .tokenReset id => some id
  | .removed id => some id
  | .accepted _ _ _ _ => none
  | .reported _ _ _ _ => none
  | .checked _ _ _ => none
  | .administered => none

/-- The machine, the binding epoch and the installation of an installation-checked request. -/
def Entry.identity : Entry → Option (String × Int × String)
  | .bound id epoch installationId => some (id, epoch, installationId)
  | .accepted id epoch installationId _ => some (id, epoch, installationId)
  | .reported id epoch installationId _ => some (id, epoch, installationId)
  | .checked id epoch installationId => some (id, epoch, installationId)
  | .status id epoch installationId _ _ _ => some (id, epoch, installationId)
  | _ => none

/-- A status that was written, with its session epoch and its sequence. -/
structure WrittenStatus where
  sessionEpoch : Int
  sequence : Int
  status : MachineStatus

def WrittenStatus.order (r : WrittenStatus) : ℤ ×ₗ ℤ := toLex (r.sessionEpoch, r.sequence)

/-- The statuses written for a machine since its last rebind, newest first. -/
def reports (id : String) : List Entry → List WrittenStatus
  | [] => []
  | .status id' _ _ sessionEpoch sequence status :: log =>
    if id' = id then ⟨sessionEpoch, sequence, status⟩ :: reports id log else reports id log
  | .rebound id' :: log => if id' = id then [] else reports id log
  | .bound _ _ _ :: log => reports id log
  | .accepted _ _ _ _ :: log => reports id log
  | .reported _ _ _ _ :: log => reports id log
  | .checked _ _ _ :: log => reports id log
  | .tokenReset _ :: log => reports id log
  | .removed _ :: log => reports id log
  | .administered :: log => reports id log

/-! ## The counters only grow -/

section Steps

variable {codec : Codec} {now : Int} {entry : Entry} {db db' : Database}

@[simp] theorem machines_setMachine (id : String) (row : MachineRow) :
    (db.setMachine id row).machines = db.machines.set id row := rfl

@[simp] theorem machines_cancelQueued (id : String) :
    (cancelQueued id now db).machines = db.machines := rfl

@[simp] theorem machines_setTask (id : String) (task : TaskRow) :
    (db.setTask id task).machines = db.machines := rfl

@[simp] theorem machines_storedReport (id : String) (request : ReportTaskRequest) (task : TaskRow)
    (state : TaskState) (diagnostic : Option String) :
    (storedReport codec id request task state diagnostic now db).machines = db.machines := by
  unfold storedReport
  dsimp only
  split_ifs <;> rfl

@[simp] theorem machines_enqueued (id taskId : String) (row : MachineRow) (kind : TaskKind)
    (task : TaskRow) : (enqueued id row kind taskId task now db).machines = db.machines := rfl

theorem fence_lt_iff {a b : MachineRow} : a.fence < b.fence ↔ a.bindingEpoch < b.bindingEpoch ∨
    a.bindingEpoch = b.bindingEpoch ∧ (a.sessionEpoch < b.sessionEpoch ∨
      a.sessionEpoch = b.sessionEpoch ∧ a.statusSequence < b.statusSequence) := by
  simp [MachineRow.fence, Prod.Lex.toLex_lt_toLex]

/-- The row a call leaves for one machine, when the call is about machine `id`. -/
theorem row_after_set {id id' : String} {row row' new : MachineRow}
    (hget : db.machines.get? id = some row) (hrow' : db.machines.get? id' = some row')
    (hle : row.fence ≤ new.fence) :
    ∃ after, (db.machines.set id new).get? id' = some after ∧ row'.fence ≤ after.fence := by
  by_cases hid : id' = id
  · subst hid
    obtain rfl : row = row' := Option.some.inj (hget.symm.trans hrow')
    exact ⟨new, by simp, hle⟩
  · exact ⟨row', by rw [Table.get?_set_of_ne _ _ hid, hrow'], le_refl _⟩

theorem fence_bound (row : MachineRow) (identity : Installation) (info : DaemonInfo) :
    row.fence < (boundRow row identity info now).fence := by
  rw [fence_lt_iff]
  by_cases h0 : row.bindingEpoch = 0
  · left; simp [boundRow, h0]
  · right
    refine ⟨by simp [boundRow, h0], .inl ?_⟩
    show row.sessionEpoch < row.sessionEpoch + 1
    omega

/-- No call lowers the counters of a machine, and every bind, rebind, token reset, removal and
status write raises them. -/
theorem fence_step (h : Effect codec now entry db db') {id : String} {row : MachineRow}
    (hrow : db.machines.get? id = some row) :
    ∃ after, db'.machines.get? id = some after ∧ row.fence ≤ after.fence ∧
      (entry.advances = some id → row.fence < after.fence) := by
  -- A call about machine `id₁` that replaces its row by one further on.
  have advance : ∀ {id₁ : String} {old new : MachineRow}, Registered db id₁ old →
      old.fence < new.fence → ∃ after, (db.machines.set id₁ new).get? id = some after ∧
        row.fence ≤ after.fence ∧ (some id₁ = some id → row.fence < after.fence) := by
    intro id₁ old new hold hlt
    by_cases hid : id = id₁
    · subst hid
      obtain rfl : old = row := Option.some.inj (hold.1.symm.trans hrow)
      exact ⟨new, by simp, hlt.le, fun _ => hlt⟩
    · exact ⟨row, by rw [Table.get?_set_of_ne _ _ hid, hrow], le_refl _,
        fun heq => absurd (Option.some.inj heq).symm hid⟩
  have stay : ∃ after, db.machines.get? id = some after ∧ row.fence ≤ after.fence ∧
      (none = some id → row.fence < after.fence) :=
    ⟨row, hrow, le_refl _, fun h => by cases h⟩
  cases h with
  | @created _ id₁ _ hnone =>
    have hid : id ≠ id₁ := fun heq => by rw [heq, hnone] at hrow; cases hrow
    exact ⟨row, by simp [Table.get?_set_of_ne _ _ hid, hrow], le_refl _, fun h => by cases h⟩
  | @updated _ _ old hold =>
    have hsame : old.fence = ({ old with version := old.version + 1 } : MachineRow).fence := rfl
    obtain ⟨after, hafter, hle⟩ := row_after_set hold.1 hrow hsame.le
    exact ⟨after, hafter, hle, fun h => by cases h⟩
  | bound hold => exact advance hold (fence_bound _ _ _)
  | rebound hold =>
    refine advance hold (fence_lt_iff.2 (.inl ?_))
    exact Int.lt_succ _
  | tokenReset hold =>
    refine advance hold (fence_lt_iff.2 (.inr ⟨rfl, .inl ?_⟩))
    exact Int.lt_succ _
  | removed hold =>
    refine advance hold (fence_lt_iff.2 (.inr ⟨rfl, .inl ?_⟩))
    exact Int.lt_succ _
  | checked => exact stay
  | reaccepted => exact stay
  | accepted => exact stay
  | status hold hseq => exact advance hold.1 (fence_lt_iff.2 (.inr ⟨rfl, .inr ⟨rfl, hseq⟩⟩))
  | rereported => exact stay
  | reported => rw [machines_storedReport]; exact stay
  | enqueued => exact stay
  | kept => exact stay

end Steps

/-! ## The invariant -/

/-- The reports `rs`, newest first, decrease, none is beyond the row's counters, and the newest
is the one the row stores. -/
structure Latest (row : MachineRow) (rs : List WrittenStatus) : Prop where
  sorted : rs.Pairwise fun a b => b.order < a.order
  below : ∀ r ∈ rs, r.order ≤ toLex (row.sessionEpoch, row.statusSequence)
  stored : row.status = rs.head?.map (·.status)

structure Fenced (w : Served) : Prop where
  checked : ∀ e ∈ w.log, ∀ id epoch installationId, e.identity = some (id, epoch, installationId) →
    1 ≤ epoch ∧ ∃ row, w.db.machines.get? id = some row ∧ epoch ≤ row.bindingEpoch ∧
      (epoch = row.bindingEpoch → row.installationId = some installationId)
  agree : ∀ e₁ ∈ w.log, ∀ e₂ ∈ w.log, ∀ id epoch i₁ i₂, e₁.identity = some (id, epoch, i₁) →
    e₂.identity = some (id, epoch, i₂) → i₁ = i₂
  epochs : ∀ id row, w.db.machines.get? id = some row → 0 ≤ row.bindingEpoch
  latest : ∀ id row, w.db.machines.get? id = some row → Latest row (reports id w.log)
  absent : ∀ id, w.db.machines.get? id = none → reports id w.log = []

theorem fenced_empty : Fenced ⟨.empty, []⟩ where
  checked := by simp
  agree := by simp
  epochs := fun id row h => by simp [Database.empty] at h
  latest := fun id row h => by simp [Database.empty] at h
  absent := fun _ _ => rfl

/-- A call that changes nothing about machines and logs nothing about them. -/
theorem Fenced.quiet {w : Served} (hw : Fenced w) {db : Database}
    (hmachines : db.machines = w.db.machines) : Fenced ⟨db, .administered :: w.log⟩ where
  checked := by
    intro e he id epoch i hi
    rcases List.mem_cons.1 he with rfl | he
    · cases hi
    · simpa only [hmachines] using hw.checked e he id epoch i hi
  agree := by
    intro e₁ h₁ e₂ h₂ id epoch i₁ i₂ hi₁ hi₂
    rcases List.mem_cons.1 h₁ with rfl | h₁
    · cases hi₁
    rcases List.mem_cons.1 h₂ with rfl | h₂
    · cases hi₂
    exact hw.agree e₁ h₁ e₂ h₂ id epoch i₁ i₂ hi₁ hi₂
  epochs := by simpa only [hmachines] using hw.epochs
  latest := by
    simp only [hmachines]
    exact hw.latest
  absent := by
    simp only [hmachines]
    exact hw.absent

/-- A new machine. -/
theorem Fenced.created {w : Served} (hw : Fenced w) {db : Database} {id : String}
    {new : MachineRow} (hnone : w.db.machines.get? id = none)
    (hmachines : db.machines = w.db.machines.set id new) (hepoch : new.bindingEpoch = 0)
    (hstatus : new.status = none) : Fenced ⟨db, .administered :: w.log⟩ where
  checked := by
    intro e he id' epoch i hi
    rcases List.mem_cons.1 he with rfl | he
    · cases hi
    obtain ⟨hpos, row, hrow, hle, hsame⟩ := hw.checked e he id' epoch i hi
    have hid : id' ≠ id := fun heq => by rw [heq, hnone] at hrow; cases hrow
    exact ⟨hpos, row, by simp only [hmachines, Table.get?_set_of_ne _ _ hid, hrow], hle, hsame⟩
  agree := by
    have hquiet : Fenced ⟨w.db, .administered :: w.log⟩ := hw.quiet rfl
    exact hquiet.agree
  epochs := by
    intro id' row hrow
    simp only [hmachines, Table.get?_set] at hrow
    split_ifs at hrow with hid
    · rw [← Option.some.inj hrow, hepoch]
    · exact hw.epochs id' row hrow
  latest := by
    intro id' row hrow
    simp only [hmachines, Table.get?_set] at hrow
    split_ifs at hrow with hid
    · have hnil : reports id' (.administered :: w.log) = [] := by
        rw [hid]; exact hw.absent id hnone
      rw [hnil, ← Option.some.inj hrow]
      exact ⟨.nil, fun r hr => absurd hr List.not_mem_nil, by simp [hstatus]⟩
    · exact hw.latest id' row hrow
  absent := by
    intro id' hrow
    simp only [hmachines, Table.get?_set] at hrow
    split_ifs at hrow with hid
    exact hw.absent id' hrow

/-- A call about one machine. An old row at the same binding epoch keeps its installation, and
an installation-checked request names the installation and the epoch of the new row. -/
theorem Fenced.about {w : Served} (hw : Fenced w) {db : Database} {id : String}
    {row new : MachineRow} {entry : Entry} (hrow : w.db.machines.get? id = some row)
    (hmachines : ∀ id', db.machines.get? id' = if id' = id then some new else w.db.machines.get? id')
    (hle : row.bindingEpoch ≤ new.bindingEpoch)
    (hkeep : new.bindingEpoch = row.bindingEpoch →
      ∀ i, row.installationId = some i → new.installationId = some i)
    (hidentity : ∀ id' epoch i, entry.identity = some (id', epoch, i) →
      id' = id ∧ epoch = new.bindingEpoch ∧ 1 ≤ epoch ∧ new.installationId = some i)
    (hlatest : Latest new (reports id (entry :: w.log)))
    (hothers : ∀ id', id' ≠ id → reports id' (entry :: w.log) = reports id' w.log) :
    Fenced ⟨db, entry :: w.log⟩ := by
  -- What an older entry about this machine says about the new row.
  have hold : ∀ e ∈ w.log, ∀ epoch i, e.identity = some (id, epoch, i) →
      1 ≤ epoch ∧ epoch ≤ new.bindingEpoch ∧
        (epoch = new.bindingEpoch → new.installationId = some i) := by
    intro e he epoch i hi
    obtain ⟨hpos, row₁, hrow₁, hle₁, hsame⟩ := hw.checked e he id epoch i hi
    obtain rfl : row = row₁ := Option.some.inj (hrow.symm.trans hrow₁)
    refine ⟨hpos, hle₁.trans hle, fun heq => ?_⟩
    have hepochs : epoch = row.bindingEpoch := le_antisymm hle₁ (heq ▸ hle)
    exact hkeep (by omega) i (hsame hepochs)
  constructor
  · intro e he id' epoch i hi
    rcases List.mem_cons.1 he with rfl | he
    · obtain ⟨rfl, rfl, hpos, hinst⟩ := hidentity id' epoch i hi
      exact ⟨hpos, new, by simp [hmachines], le_refl _, fun _ => hinst⟩
    by_cases hid : id' = id
    · subst hid
      obtain ⟨hpos, hle', hsame⟩ := hold e he epoch i hi
      exact ⟨hpos, new, by simp [hmachines], hle', hsame⟩
    · obtain ⟨hpos, row₁, hrow₁, hrest⟩ := hw.checked e he id' epoch i hi
      exact ⟨hpos, row₁, by simp only [hmachines, hid, if_false, hrow₁], hrest⟩
  · intro e₁ h₁ e₂ h₂ id' epoch i₁ i₂ hi₁ hi₂
    rcases List.mem_cons.1 h₁ with rfl | hm₁
    · obtain ⟨rfl, rfl, -, hinst⟩ := hidentity id' epoch i₁ hi₁
      rcases List.mem_cons.1 h₂ with rfl | hm₂
      · simpa using hi₁.symm.trans hi₂
      · have hsame := (hold e₂ hm₂ _ i₂ hi₂).2.2 rfl
        exact Option.some.inj (hinst.symm.trans hsame)
    · rcases List.mem_cons.1 h₂ with rfl | hm₂
      · obtain ⟨rfl, rfl, -, hinst⟩ := hidentity id' epoch i₂ hi₂
        have hsame := (hold e₁ hm₁ _ i₁ hi₁).2.2 rfl
        exact Option.some.inj (hsame.symm.trans hinst)
      · exact hw.agree e₁ hm₁ e₂ hm₂ id' epoch i₁ i₂ hi₁ hi₂
  · intro id' row' hrow'
    simp only [hmachines] at hrow'
    split_ifs at hrow' with hid
    · rw [← Option.some.inj hrow']
      exact (hw.epochs id row hrow).trans hle
    · exact hw.epochs id' row' hrow'
  · intro id' row' hrow'
    simp only [hmachines] at hrow'
    split_ifs at hrow' with hid
    · rw [← Option.some.inj hrow', hid]
      exact hlatest
    · rw [hothers id' hid]
      exact hw.latest id' row' hrow'
  · intro id' hrow'
    simp only [hmachines] at hrow'
    split_ifs at hrow' with hid
    rw [hothers id' hid]
    exact hw.absent id' hrow'

/-- The reports stay the latest when the counters move on and the status is kept. -/
theorem Latest.advance {row new : MachineRow} {rs : List WrittenStatus} (h : Latest row rs)
    (hstatus : new.status = row.status)
    (hle : toLex (row.sessionEpoch, row.statusSequence) ≤
      toLex (new.sessionEpoch, new.statusSequence)) : Latest new rs where
  sorted := h.sorted
  below := fun r hr => (h.below r hr).trans hle
  stored := hstatus.trans h.stored

theorem fenced_step {codec : Codec} {now : Int} {w : Served} (hw : Fenced w) {entry : Entry}
    {db : Database} (h : Effect codec now entry w.db db) : Fenced ⟨db, entry :: w.log⟩ := by
  obtain ⟨wdb, log⟩ := w
  -- The machines after a write of one row.
  have hset : ∀ (id : String) (new : MachineRow) (id' : String),
      (wdb.machines.set id new).get? id' = if id' = id then some new else wdb.machines.get? id' :=
    fun id new id' => Table.get?_set _ _ _ _
  -- A machine's row written back as it is.
  have hsame : ∀ {id : String} {row : MachineRow}, wdb.machines.get? id = some row → ∀ id',
      wdb.machines.get? id' = if id' = id then some row else wdb.machines.get? id' := by
    intro id row hrow id'
    by_cases hid : id' = id
    · rw [if_pos hid, hid, hrow]
    · rw [if_neg hid]
  have hsession : ∀ (row : MachineRow) (q : Int),
      toLex (row.sessionEpoch, row.statusSequence) ≤ toLex (row.sessionEpoch + 1, q) :=
    fun row q => Prod.Lex.toLex_le_toLex.2 (.inl (Int.lt_succ _))
  -- An installation-checked request that leaves the machines alone.
  have hchecked : ∀ {id i : String} {row : MachineRow} {db : Database} {entry : Entry},
      Enrolled wdb id row i → db.machines = wdb.machines →
      entry.identity = some (id, row.bindingEpoch, i) →
      (∀ id', reports id' (entry :: log) = reports id' log) → Fenced ⟨db, entry :: log⟩ := by
    intro id i row db entry ⟨hreg, hinst, hpos⟩ hdb hentry hreports
    refine hw.about hreg.1 (by rw [hdb]; exact hsame hreg.1) (le_refl _) (fun _ _ h => h) ?_
      (hreports id ▸ hw.latest id row hreg.1) (fun id' _ => hreports id')
    intro id' epoch i' hi
    rw [hentry] at hi
    simp only [Option.some.injEq, Prod.mk.injEq] at hi
    obtain ⟨rfl, rfl, rfl⟩ := hi
    exact ⟨rfl, rfl, hpos, hinst⟩
  cases h with
  | created hnone => exact hw.created hnone rfl rfl rfl
  | @updated _ id row hreg =>
    exact hw.about hreg.1 (hset id _) (le_refl _) (fun _ _ h => h) (fun _ _ _ h => nomatch h)
      ((hw.latest id row hreg.1).advance rfl (le_refl _)) (fun _ _ => rfl)
  | @bound _ id row identity info hreg hsameInst _ =>
    have hpos := hw.epochs id row hreg.1
    refine hw.about hreg.1 (hset id _) ?_ ?_ ?_ ?_ (fun _ _ => rfl)
    · show row.bindingEpoch ≤ if row.bindingEpoch = 0 then 1 else row.bindingEpoch
      split_ifs <;> omega
    · intro _ i hi
      show some identity.installationId = some i
      rw [hsameInst i hi]
    · intro id' epoch i hi
      simp only [Entry.identity, Option.some.injEq, Prod.mk.injEq] at hi
      obtain ⟨rfl, rfl, rfl⟩ := hi
      refine ⟨rfl, rfl, ?_, rfl⟩
      show 1 ≤ if row.bindingEpoch = 0 then 1 else row.bindingEpoch
      split_ifs <;> omega
    · exact (hw.latest id row hreg.1).advance rfl (hsession row 0)
  | @rebound _ id token row hreg _ =>
    refine hw.about hreg.1 (hset id _) ?_ ?_ (fun _ _ _ h => nomatch h) ?_ ?_
    · exact (Int.lt_succ _).le
    · intro heq
      exact absurd heq (ne_of_gt (Int.lt_succ _))
    · simp only [reports, if_true]
      exact ⟨.nil, fun r hr => absurd hr List.not_mem_nil, rfl⟩
    · intro id' hid
      simp [reports, Ne.symm hid]
  | @tokenReset _ id token row hreg =>
    exact hw.about hreg.1 (hset id _) (le_refl _) (fun _ _ h => h) (fun _ _ _ h => nomatch h)
      ((hw.latest id row hreg.1).advance rfl (hsession row _)) (fun _ _ => rfl)
  | @removed _ id row hreg =>
    exact hw.about hreg.1 (hset id _) (le_refl _) (fun _ _ h => h) (fun _ _ _ h => nomatch h)
      ((hw.latest id row hreg.1).advance rfl (hsession row _)) (fun _ _ => rfl)
  | checked hrow => exact hchecked hrow rfl rfl fun _ => rfl
  | reaccepted hrow => exact hchecked hrow rfl rfl fun _ => rfl
  | accepted hrow => exact hchecked hrow rfl rfl fun _ => rfl
  | @status _ id i row sequence status hrow hseq =>
    obtain ⟨hreg, hinst, hpos⟩ := hrow
    have hlatest := hw.latest id row hreg.1
    refine hw.about hreg.1 (hset id _) (le_refl _) (fun _ _ h => h) ?_ ?_ ?_
    · intro id' epoch i' hi
      simp only [Entry.identity, Option.some.injEq, Prod.mk.injEq] at hi
      obtain ⟨rfl, rfl, rfl⟩ := hi
      exact ⟨rfl, rfl, hpos, hinst⟩
    · -- Everything written before is below the old counters, hence below this sequence.
      have hlt : toLex (row.sessionEpoch, row.statusSequence) < toLex (row.sessionEpoch, sequence) :=
        Prod.Lex.toLex_lt_toLex.2 (.inr ⟨rfl, hseq⟩)
      simp only [reports, if_true]
      refine ⟨List.pairwise_cons.2 ⟨fun r hr => (hlatest.below r hr).trans_lt hlt,
        hlatest.sorted⟩, ?_, rfl⟩
      intro r hr
      rcases List.mem_cons.1 hr with rfl | hr
      · exact le_refl _
      · exact (hlatest.below r hr).trans hlt.le
    · intro id' hid
      simp [reports, Ne.symm hid]
  | rereported hrow => exact hchecked hrow rfl rfl fun _ => rfl
  | reported hrow => exact hchecked hrow (machines_storedReport _ _ _ _ _) rfl fun _ => rfl
  | enqueued => exact hw.quiet rfl
  | kept => exact hw.quiet rfl

theorem fenced_serve (codec : Codec) (events : List (Int × Call)) : Fenced (serve codec events) := by
  suffices ∀ w, Fenced w → Fenced (events.foldl (Served.step codec) w) from this _ fenced_empty
  induction events with
  | nil => exact fun w hw => hw
  | cons event events ih =>
    intro w hw
    refine ih _ ?_
    unfold Served.step
    cases hperform : perform codec event.1 w.db event.2 with
    | error e => exact hw
    | ok r => exact fenced_step hw (perform_effect hperform)

/-! ## Stale sessions -/

section Stale

variable {codec : Codec} {now : Int} {db : Database}

theorem submitStatus_stale (codec : Codec) {header : Option String} {installation : Option Installation}
    {machine : String × MachineRow} {sessionEpoch sequence : Int} {status : MachineStatus}
    (hauth : authenticate db header = .ok machine) (hold : sessionEpoch < machine.2.sessionEpoch) :
    ∃ e, submitStatus header installation sessionEpoch sequence status now db = .error e := by
  cases h : submitStatus header installation sessionEpoch sequence status now db with
  | error e => exact ⟨e, rfl⟩
  | ok r =>
    exfalso
    simp only [submitStatus, bind_eq_ok, authenticateActive_eq_ok, hauth, pure_eq_ok] at h
    obtain ⟨m, ⟨hm, -⟩, identity, hidentity, ⟨committed, db'⟩, hreport, -⟩ := h
    cases hm
    have hrow := authenticate_eq_ok hauth
    have := (reportStatus_effect codec ⟨hrow, assertInstallation_eq_ok hidentity⟩ hreport).1
    omega

theorem acceptTask_stale (codec : Codec) {header : Option String} {installation : Option Installation}
    {machine : String × MachineRow} {sessionEpoch : Int} {taskId hash : String}
    (hauth : authenticate db header = .ok machine) (hold : sessionEpoch < machine.2.sessionEpoch) :
    ∃ e, acceptTask header installation sessionEpoch taskId hash now db = .error e := by
  cases h : acceptTask header installation sessionEpoch taskId hash now db with
  | error e => exact ⟨e, rfl⟩
  | ok r =>
    exfalso
    simp only [acceptTask, bind_eq_ok, authenticateActive_eq_ok, hauth, pure_eq_ok] at h
    obtain ⟨m, ⟨hm, -⟩, identity, hidentity, ⟨task, db'⟩, haccept, -⟩ := h
    cases hm
    have hrow := authenticate_eq_ok hauth
    have := (accept_effect codec ⟨hrow, assertInstallation_eq_ok hidentity⟩ haccept).1
    omega

end Stale

/-! ## The theorem -/

/-- In every run, from every state it reaches: no call lowers the counters of a machine, and
every bind, rebind, token reset, removal and status write raises them; the installation-checked
requests of one binding epoch carry one installation; the stored status is the newest written
since the last rebind; and a request of an older session neither writes a status nor accepts a
task. -/
theorem machines_fenced (codec : Codec) (events : List (Int × Call)) :
    let w := serve codec events
    (∀ now call entry db', perform codec now w.db call = .ok (entry, db') →
      ∀ id row, w.db.machines.get? id = some row →
        ∃ after, db'.machines.get? id = some after ∧ row.fence ≤ after.fence ∧
          (entry.advances = some id → row.fence < after.fence)) ∧
    (∀ e₁ ∈ w.log, ∀ e₂ ∈ w.log, ∀ id epoch i₁ i₂, e₁.identity = some (id, epoch, i₁) →
      e₂.identity = some (id, epoch, i₂) → i₁ = i₂) ∧
    (∀ id row, w.db.machines.get? id = some row →
      (row.status = none ↔ reports id w.log = []) ∧
      ∀ status, row.status = some status → ∃ r ∈ reports id w.log, r.status = status ∧
        ∀ r' ∈ reports id w.log, r' = r ∨ r'.order < r.order) ∧
    (∀ now header machine installation sessionEpoch,
      authenticate w.db header = .ok machine → sessionEpoch < machine.2.sessionEpoch →
        (∀ sequence status, ∃ e,
          perform codec now w.db (.reportStatus header installation sessionEpoch sequence status) =
            .error e) ∧
        ∀ taskId hash, ∃ e,
          perform codec now w.db (.acceptTask header installation sessionEpoch taskId hash) =
            .error e) := by
  intro w
  have hw : Fenced w := fenced_serve codec events
  refine ⟨?_, hw.agree, ?_, ?_⟩
  · intro now call entry db' hperform id row hrow
    exact fence_step (perform_effect hperform) hrow
  · intro id row hrow
    obtain ⟨hsorted, -, hstored⟩ := hw.latest id row hrow
    cases hreports : reports id w.log with
    | nil =>
      rw [hreports] at hstored
      exact ⟨by simp [hstored], fun status hstatus => by simp [hstored] at hstatus⟩
    | cons r rs =>
      rw [hreports] at hstored hsorted
      refine ⟨by simp [hstored], fun status hstatus => ⟨r, List.mem_cons_self, ?_, ?_⟩⟩
      · simpa [hstored] using hstatus
      · intro r' hr'
        rcases List.mem_cons.1 hr' with rfl | hr'
        · exact .inl rfl
        · exact .inr ((List.pairwise_cons.1 hsorted).1 r' hr')
  · intro now header machine installation sessionEpoch hauth hold
    refine ⟨fun sequence status => submitStatus_stale codec hauth hold, fun taskId hash => ?_⟩
    have hstale : ∃ e, acceptTask header installation sessionEpoch taskId hash now w.db = .error e :=
      acceptTask_stale codec hauth hold
    obtain ⟨e, he⟩ := hstale
    exact ⟨e, by simp only [perform, he]; rfl⟩

end Bifurcation.Panel
