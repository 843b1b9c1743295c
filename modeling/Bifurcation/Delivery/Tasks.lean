import Bifurcation.Daemon.Journal
import Bifurcation.Panel.TaskQueue

/-!
# Task execution and result agreement

One daemon with its journal, the panel, and the messages between them. A daemon has two
threads that report: the worker that executes tasks one after the other, and the session that
flushes stored results. Every transaction of the journal and every call of the panel is one
step; a crash ends both threads at any point between.

**Messages.** Everything ever sent stays in the lists `replies`, `reports` and `answers`, and
any of it may arrive any number of times, in any order, or never.

**The panel** serves any calls beside. Only the machine's own daemon reports its inspection and
configuration tasks; upgrades and uninstalls are reported by a helper process, and other
machines report their own.

**The invariant** (`Agree`). Stored results are final and carry the sequence of their row; every
report ever sent is a progress report or the stored result; a task the panel has finished
carries the stored result; a positive answer and an acknowledgement mean that it did.

Main result: `tasks_agree`.
-/

namespace Bifurcation.Delivery

open Daemon (Journal JournalRow ReportCodec Outcome pendingResults acknowledgeTask transition
  runningReport finalReport statusOf resultReport)
open Panel (Database TaskRow Call)

/-! ## The system -/

/-- Where the task worker is. -/
inductive Worker where
  | idle
  /-- The journal has the task; its operation has not started. -/
  | accepted (id : String)
  | executing (id : String)
  | finished (id : String) (outcome : Outcome)
  /-- The terminal report is numbered, not stored. -/
  | numbered (id : String) (report : ReportTaskRequest)
  | reporting (id : String) (row : JournalRow)
  | waiting (id : String) (row : JournalRow)

structure TaskWorld where
  panel : Database
  journal : Journal
  installation : Installation
  worker : Worker
  /-- The results the session still has to report; the first may have been sent. -/
  flushing : List (String × JournalRow)
  replies : List (String × TaskRow)
  reports : List ReportTaskRequest
  answers : List (String × ReportTaskResponse)
  /-- The sequences assigned so far, newest first. -/
  assigned : List (String × Int)
  /-- The operations started so far. -/
  started : List String

inductive TaskEvent where
  | panel (now : Int) (call : Call)
  | acceptRequest (now : Int) (header : Option String) (installation : Option Installation)
      (sessionEpoch : Int) (taskId hash : String)
  | deliver (now : Int) (header : Option String) (report : ReportTaskRequest)
  | receiveReply (reply : String × TaskRow)
  | begin
  | finish (outcome : Outcome)
  | number
  | store
  | send
  | receiveAnswer (answer : ReportTaskResponse)
  | flush
  | flushSend
  | flushAnswer (answer : ReportTaskResponse)
  | giveUp
  | flushGiveUp
  | crash
  | rebind (installation : Installation)

/-- The kinds the worker executes itself. -/
def plain (kind : TaskKind) : Bool := kind = .inspect || kind = .applyConfig

/-- A call that is not a report of one of machine `M`'s plain tasks. -/
def foreign (M : String) (db : Database) : Call → Prop
  | .reportTask header request =>
    match Panel.authenticate db header with
    | .ok machine => machine.1 = M →
        ∀ t, db.tasks.get? request.taskId = some t → plain t.kind = false
    | .error _ => True
  | _ => True

instance (M : String) (db : Database) (call : Call) : Decidable (foreign M db call) := by
  unfold foreign
  cases call with
  | reportTask header request =>
    dsimp only
    cases Panel.authenticate db header with
    | error e => exact instDecidableTrue
    | ok machine =>
      dsimp only
      refine decidable_of_iff (machine.1 = M →
        ((db.tasks.get? request.taskId).all fun t => !plain t.kind) = true) ?_
      cases db.tasks.get? request.taskId <;> simp
  | _ => exact instDecidableTrue

/-- `reportResult`, the answer: acknowledge the row when the panel has its terminal sequence. -/
def handleAnswer (id : String) (row : JournalRow) (answer : ReportTaskResponse) (j : Journal) :
    Journal :=
  if answer.terminal = true ∧ answer.committedSequence = row.progressSeq then
    match acknowledgeTask id row.progressSeq j with
    | .ok j => j
    | .error _ => j
  else j

section Step

variable (M : String) (codec : Panel.Codec) (reportCodec : ReportCodec)

/-- A copy of an accept request reaches the panel. -/
def TaskWorld.acceptRequest (w : TaskWorld) (now : Int) (header : Option String)
    (installation : Option Installation) (sessionEpoch : Int) (taskId hash : String) : TaskWorld :=
  match Panel.acceptTask header installation sessionEpoch taskId hash now w.panel with
  | .ok (_, task, panel) =>
    { w with panel
             replies := if task.machineId = M then (taskId, task) :: w.replies else w.replies }
  | .error _ => w

/-- A copy of a report reaches the panel. -/
def TaskWorld.deliver (w : TaskWorld) (now : Int) (header : Option String)
    (report : ReportTaskRequest) : TaskWorld :=
  match Panel.submitReport codec header report now w.panel with
  | .ok (_, answer, panel) => { w with panel, answers := (report.taskId, answer) :: w.answers }
  | .error _ => w

/-- The answer to an accept request arrives: the journal records the task. -/
def TaskWorld.receiveReply (w : TaskWorld) (id : String) (task : TaskRow) : TaskWorld :=
  if sha256 task.payload = task.payloadHash ∧ task.bindingEpoch = w.installation.bindingEpoch then
    match Daemon.acceptTask id task.payloadHash task.kind task.payload task.bindingEpoch
      w.journal with
    | .ok (row, journal) =>
      { w with journal, worker := if row.terminal then .reporting id row else .accepted id }
    | .error _ => w
  else w

/-- The operation starts: running progress is persisted first. -/
def TaskWorld.begin (w : TaskWorld) (id : String) : TaskWorld :=
  match transition id .running none w.journal with
  | .ok (row, journal) =>
    { w with journal, worker := .executing id
             reports := runningReport id w.installation row :: w.reports
             assigned := (id, row.progressSeq) :: w.assigned
             started := id :: w.started }
  | .error _ => { w with worker := .idle }

/-- The terminal outcome is persisted. -/
def TaskWorld.store (w : TaskWorld) (id : String) (report : ReportTaskRequest) : TaskWorld :=
  match reportCodec.marshal report with
  | none => { w with worker := .idle }
  | some encoded =>
    match transition id (statusOf report) (some encoded) w.journal with
    | .ok (row, journal) =>
      { w with journal, worker := .reporting id row
               assigned := (id, row.progressSeq) :: w.assigned }
    | .error _ => { w with worker := .idle }

/-- The session reports the first of the results it flushes. -/
def TaskWorld.flushSend (w : TaskWorld) (row : JournalRow) : TaskWorld :=
  if row.bindingEpoch ≠ w.installation.bindingEpoch then { w with flushing := [] }
  else
    match resultReport reportCodec w.installation row with
    | some report => { w with reports := report :: w.reports }
    | none => { w with flushing := [] }

def TaskWorld.step (w : TaskWorld) : TaskEvent → TaskWorld
  | .panel now call =>
    if foreign M w.panel call then
      match Panel.perform codec now w.panel call with
      | .ok (_, panel) => { w with panel }
      | .error _ => w
    else w
  | .acceptRequest now header installation sessionEpoch taskId hash =>
    w.acceptRequest M now header installation sessionEpoch taskId hash
  | .deliver now header report =>
    if report ∈ w.reports then w.deliver codec now header report else w
  | .receiveReply reply =>
    match w.worker with
    | .idle => if reply ∈ w.replies ∧ plain reply.2.kind then w.receiveReply reply.1 reply.2 else w
    | _ => w
  | .begin =>
    match w.worker with
    | .accepted id => w.begin id
    | _ => w
  | .finish outcome =>
    match w.worker with
    | .executing id => { w with worker := .finished id outcome }
    | _ => w
  | .number =>
    match w.worker with
    | .finished id outcome =>
      match w.journal.get? id with
      | some row => { w with worker := .numbered id (finalReport id w.installation row outcome) }
      | none => { w with worker := .idle }
    | _ => w
  | .store =>
    match w.worker with
    | .numbered id report => w.store reportCodec id report
    | _ => w
  | .send =>
    match w.worker with
    | .reporting id row =>
      match resultReport reportCodec w.installation row with
      | some report => { w with worker := .waiting id row, reports := report :: w.reports }
      | none => { w with worker := .idle }
    | _ => w
  | .receiveAnswer answer =>
    match w.worker with
    | .waiting id row =>
      if (id, answer) ∈ w.answers then
        { w with journal := handleAnswer id row answer w.journal, worker := .idle }
      else w
    | _ => w
  | .flush =>
    match w.flushing with
    | [] => { w with flushing := pendingResults w.journal }
    | _ => w
  | .flushSend =>
    match w.flushing with
    | [] => w
    | x :: _ => w.flushSend reportCodec x.2
  | .flushAnswer answer =>
    match w.flushing with
    | [] => w
    | x :: rest =>
      if (x.1, answer) ∈ w.answers then
        { w with journal := handleAnswer x.1 x.2 answer w.journal, flushing := rest }
      else w
  | .giveUp => { w with worker := .idle }
  | .flushGiveUp => { w with flushing := [] }
  | .crash => { w with worker := .idle, flushing := [] }
  | .rebind installation => { w with installation }

def TaskWorld.run (w : TaskWorld) (events : List TaskEvent) : TaskWorld :=
  events.foldl (TaskWorld.step M codec reportCodec) w

/-- Both databases empty, nothing sent. -/
def TaskWorld.init (installation : Installation) : TaskWorld where
  panel := .empty
  journal := .empty
  installation := installation
  worker := .idle
  flushing := []
  replies := []
  reports := []
  answers := []
  assigned := []
  started := []

end Step

/-! ## What agreement means -/

/-- The stored report of a terminal row. -/
def reportOf (codec : ReportCodec) (row : JournalRow) : Option ReportTaskRequest :=
  row.result.bind codec.unmarshal

/-- A state with a result. -/
def finished (state : Panel.TaskState) : Prop := state = .succeeded ∨ state = .failed

/-- The panel's task carries the state, the sequence and the result fields of a report. -/
structure Carries (codec : Panel.Codec) (t : TaskRow) (report : ReportTaskRequest) : Prop where
  state : Panel.reportedState report.state = some t.state
  sequence : t.progressSequence = report.sequence
  phase : t.phase = Panel.orNull report.phase
  progressPercent : t.progressPercent = report.progressPercent
  message : t.message = Panel.orNull report.message
  errorCode : t.errorCode = Panel.orNull report.errorCode
  rollback : t.rollback = some report.rollback
  diagnostic : Panel.diagnosticOf codec report.diagnosticJson = .ok t.diagnosticJson

/-- The journal later in the run: rows stay, sequences do not go back, results are final. -/
def Onward (j j' : Journal) : Prop :=
  ∀ id row, j.get? id = some row → ∃ row', j'.get? id = some row' ∧ row'.kind = row.kind ∧
    row.progressSeq ≤ row'.progressSeq ∧ (row.terminal = true →
      row'.status = row.status ∧ row'.result = row.result ∧ row'.progressSeq = row.progressSeq)

theorem Onward.refl (j : Journal) : Onward j j :=
  fun _ row h => ⟨row, h, rfl, le_refl _, fun _ => ⟨rfl, rfl, rfl⟩⟩

theorem terminal_congr {row row' : JournalRow} (h : row'.status = row.status) :
    row'.terminal = row.terminal := by
  simp [JournalRow.terminal, h]

theorem Onward.trans {a b c : Journal} (h : Onward a b) (h' : Onward b c) : Onward a c := by
  intro id row hrow
  obtain ⟨r₁, h₁, hk₁, hle₁, hf₁⟩ := h id row hrow
  obtain ⟨r₂, h₂, hk₂, hle₂, hf₂⟩ := h' id r₁ h₁
  refine ⟨r₂, h₂, hk₂.trans hk₁, hle₁.trans hle₂, fun hterminal => ?_⟩
  obtain ⟨hs₁, hr₁, hp₁⟩ := hf₁ hterminal
  obtain ⟨hs₂, hr₂, hp₂⟩ := hf₂ (by rw [terminal_congr hs₁, hterminal])
  exact ⟨hs₂.trans hs₁, hr₂.trans hr₁, hp₂.trans hp₁⟩

/-- A terminal row with the result of a row read before. -/
def Holds (j : Journal) (x : String × JournalRow) : Prop :=
  ∃ row, j.get? x.1 = some row ∧ row.terminal = true ∧ row.result = x.2.result ∧
    row.progressSeq = x.2.progressSeq

/-- A report that may be on its way: progress, or the stored result. -/
def Sent (codec : ReportCodec) (j : Journal) (r : ReportTaskRequest) : Prop :=
  ∃ row, j.get? r.taskId = some row ∧ (r.state = .running ∨ row.terminal = true ∧
    ∃ rep, reportOf codec row = some rep ∧ r = { rep with installation := r.installation })

/-- The row of the task the worker is at. -/
def WorkerOk (j : Journal) : Worker → Prop
  | .idle => True
  | .accepted id => ∃ row, j.get? id = some row ∧ row.terminal = false
  | .executing id => ∃ row, j.get? id = some row ∧ row.terminal = false
  | .finished id _ => ∃ row, j.get? id = some row ∧ row.terminal = false
  | .numbered id report => ∃ row, j.get? id = some row ∧ row.terminal = false ∧
      report.taskId = id ∧ report.sequence = row.progressSeq + 1 ∧
      (report.state = .succeeded ∨ report.state = .failed)
  | .reporting id row => Holds j (id, row)
  | .waiting id row => Holds j (id, row)

/-- The panel has finished task `id` with this sequence. -/
def Committed (M : String) (db : Database) (id : String) (seq : Int) : Prop :=
  ∃ t, db.tasks.get? id = some t ∧ t.machineId = M ∧ plain t.kind = true ∧ finished t.state ∧
    t.progressSequence = seq

structure Agree (M : String) (codec : Panel.Codec) (reportCodec : ReportCodec) (w : TaskWorld) :
    Prop where
  tasks : ∀ id row, w.journal.get? id = some row →
    ∃ t, w.panel.tasks.get? id = some t ∧ t.machineId = M ∧ plain t.kind = true
  replies : ∀ x ∈ w.replies, ∃ t, w.panel.tasks.get? x.1 = some t ∧ t.machineId = M ∧
    t.kind = x.2.kind
  results : ∀ id row, w.journal.get? id = some row → row.terminal = true →
    (id, row.progressSeq) ∈ w.assigned ∧ ∃ rep, reportOf reportCodec row = some rep ∧
      rep.taskId = id ∧ rep.sequence = row.progressSeq ∧
      (rep.state = .succeeded ∨ rep.state = .failed)
  sent : ∀ r ∈ w.reports, Sent reportCodec w.journal r ∧ (r.taskId, r.sequence) ∈ w.assigned
  bounded : ∀ x ∈ w.assigned, ∃ row, w.journal.get? x.1 = some row ∧ x.2 ≤ row.progressSeq
  increasing : w.assigned.Pairwise fun a b => a.1 = b.1 → b.2 < a.2
  worker : WorkerOk w.journal w.worker
  flushing : ∀ x ∈ w.flushing, Holds w.journal x
  answers : ∀ x ∈ w.answers, x.2.terminal = true → Committed M w.panel x.1 x.2.committedSequence
  done : ∀ id t, w.panel.tasks.get? id = some t → t.machineId = M → plain t.kind = true →
    finished t.state → ∃ row rep, w.journal.get? id = some row ∧ row.terminal = true ∧
      reportOf reportCodec row = some rep ∧ Carries codec t rep
  acknowledged : ∀ id row, w.journal.get? id = some row → row.acknowledged = true →
    Committed M w.panel id row.progressSeq

/-! ## The panel's side -/

section PanelSide

variable {codec : Panel.Codec} {now : Int} {db db' : Database}

theorem not_pending_of_finished {state : Panel.TaskState} (h : finished state) :
    Panel.pendingState state = false := by
  rcases h with rfl | rfl <;> rfl

theorem Committed.evolves {M id : String} {seq : Int} (h : Committed M db id seq)
    (he : Panel.Evolves db.tasks db'.tasks) : Committed M db' id seq := by
  obtain ⟨t, hget, hM, hplain, hdone, hseq⟩ := h
  obtain ⟨t', hget', hlater⟩ := he.get? hget
  obtain rfl := hlater.final (not_pending_of_finished hdone)
  exact ⟨t', hget', hM, hplain, hdone, hseq⟩

theorem finished_of_cancel {D : Database} {id k : String} {t' : TaskRow}
    (h : (Panel.cancelQueued id now D).tasks.get? k = some t') (hdone : finished t'.state) :
    D.tasks.get? k = some t' := by
  obtain ⟨t, ht, -, hsame, -⟩ := Panel.get?_cancelQueued h
  rcases hsame with rfl | hcanceled
  · exact ht
  · rw [hcanceled] at hdone
    rcases hdone with hdone | hdone <;> cases hdone

/-- Only a stored report finishes a task. -/
theorem finished_effect {entry : Panel.Entry} (h : Panel.Effect codec now entry db db')
    {k : String} {t' : TaskRow} (hget : db'.tasks.get? k = some t') (hdone : finished t'.state) :
    db.tasks.get? k = some t' ∨ ∃ id epoch i t, entry = .reported id epoch i k ∧
      db.tasks.get? k = some t ∧ t.machineId = id := by
  cases h with
  | created => exact .inl hget
  | updated => exact .inl hget
  | bound => exact .inl hget
  | @rebound _ id token row => exact .inl (finished_of_cancel (D := db.setMachine id _) hget hdone)
  | tokenReset => exact .inl hget
  | @removed _ id row => exact .inl (finished_of_cancel (D := db.setMachine id _) hget hdone)
  | checked => exact .inl hget
  | reaccepted => exact .inl hget
  | @accepted _ id i taskId row task =>
    rw [Database.setTask, Table.get?_set] at hget
    split_ifs at hget with hk
    · obtain rfl := Option.some.inj hget
      rcases hdone with hdone | hdone <;> cases hdone
    · exact .inl hget
  | status => exact .inl hget
  | rereported => exact .inl hget
  | @reported _ id i row request task state diagnostic _ htask =>
    by_cases hk : k = request.taskId
    · exact .inr ⟨id, _, i, task, by rw [hk], hk ▸ htask.1, htask.2.1⟩
    · left
      have hother : ∀ {u : TaskRow}, (db.setTask request.taskId (Panel.reportedTask task request
          state (sha256 (codec.reportTaskToBinary request)) diagnostic now)).tasks.get? k = some u →
          db.tasks.get? k = some u := by
        intro u hu
        rwa [Database.setTask, Table.get?_set, if_neg hk] at hu
      unfold Panel.storedReport at hget
      dsimp only at hget
      split_ifs at hget
      · exact hother (finished_of_cancel hget hdone)
      · exact hother hget
  | @enqueued _ id taskId row kind payload requestKey =>
    left
    simp only [Panel.enqueued, Table.get?_set] at hget
    split_ifs at hget with hk hkind
    · obtain rfl := Option.some.inj hget
      rcases hdone with hdone | hdone <;> cases hdone
    · simp only [Panel.supersede, Table.get?_updateWhere, Option.map_eq_some_iff] at hget
      obtain ⟨t, ht, rfl⟩ := hget
      by_cases hc : Panel.coalesced id row.bindingEpoch k t
      · rw [if_pos hc] at hdone
        rcases hdone with hdone | hdone <;> cases hdone
      · rw [if_neg hc]
        exact ht
    · exact hget
  | kept => exact .inl hget

/-- Only the report handler answers with a stored report. -/
theorem perform_reported {call : Call} {id i taskId : String} {epoch : Int}
    (h : Panel.perform codec now db call = .ok (.reported id epoch i taskId, db')) :
    ∃ header request row, call = .reportTask header request ∧ request.taskId = taskId ∧
      Panel.authenticate db header = .ok (id, row) := by
  cases call with
  | acceptTask header installation sessionEpoch taskId' hash =>
    simp only [Panel.perform, Panel.acceptTask, bind_eq_ok, pure_eq_ok, Prod.exists,
      Prod.mk.injEq] at h
    obtain ⟨e, task, db₁, ⟨id, row, -, identity, -, t, db₂, -, rfl, rfl, rfl⟩, hentry, -⟩ := h
    cases hentry
  | reportStatus header installation sessionEpoch sequence status =>
    simp only [Panel.perform, Panel.submitStatus, bind_eq_ok, pure_eq_ok, Prod.exists,
      Prod.mk.injEq] at h
    obtain ⟨id, row, -, identity, -, committed, db₂, -, hentry, -⟩ := h
    unfold Panel.statusEntry at hentry
    split_ifs at hentry
  | reportTask header request =>
    simp only [Panel.perform, Panel.submitReport, bind_eq_ok, pure_eq_ok, Prod.exists,
      Prod.mk.injEq] at h
    obtain ⟨e, response, db₁, ⟨id', row, hauth, identity, -, r, db₂, -, rfl, -, -⟩, hentry, -⟩ := h
    simp only [Panel.Entry.reported.injEq] at hentry
    obtain ⟨rfl, -, -, htask⟩ := hentry
    exact ⟨header, request, row, rfl, htask, hauth⟩
  | _ =>
    simp only [Panel.perform, Panel.openSession, bind_eq_ok, pure_eq_ok, Prod.mk.injEq,
      reduceCtorEq, false_and, and_false, exists_false] at h

/-- A plain task changes by its report alone. -/
theorem storedReport_of_plain {id : String} {request : ReportTaskRequest} {task : TaskRow}
    {state : Panel.TaskState} {diagnostic : Option String} (hplain : plain task.kind = true) :
    Panel.storedReport codec id request task state diagnostic now db =
      db.setTask request.taskId (Panel.reportedTask task request state
        (sha256 (codec.reportTaskToBinary request)) diagnostic now) := by
  unfold Panel.storedReport
  dsimp only
  rw [if_neg]
  rintro ⟨-, hkind⟩
  rw [hkind] at hplain
  cases hplain

end PanelSide

/-! ## The journal's side -/

section JournalSide

variable {reportCodec : ReportCodec} {j j' : Journal}

theorem Holds.onward {x : String × JournalRow} (h : Holds j x) (ho : Onward j j') :
    Holds j' x := by
  obtain ⟨row, hget, hterminal, hresult, hseq⟩ := h
  obtain ⟨row', hget', -, -, hfinal⟩ := ho x.1 row hget
  obtain ⟨hs, hr, hp⟩ := hfinal hterminal
  exact ⟨row', hget', by rw [terminal_congr hs, hterminal], hr.trans hresult, hp.trans hseq⟩

theorem reportOf_congr {row row' : JournalRow} (h : row'.result = row.result) :
    reportOf reportCodec row' = reportOf reportCodec row := by
  simp [reportOf, h]

theorem Sent.onward {r : ReportTaskRequest} (h : Sent reportCodec j r) (ho : Onward j j') :
    Sent reportCodec j' r := by
  obtain ⟨row, hget, hr⟩ := h
  obtain ⟨row', hget', -, -, hfinal⟩ := ho r.taskId row hget
  refine ⟨row', hget', hr.imp id ?_⟩
  rintro ⟨hterminal, rep, hrep, heq⟩
  obtain ⟨hs, hres, -⟩ := hfinal hterminal
  exact ⟨by rw [terminal_congr hs, hterminal], rep, by rw [reportOf_congr hres, hrep], heq⟩

/-- A write of a row that keeps its place in the run. -/
theorem onward_set {id : String} {row new : JournalRow} (hget : j.get? id = some row)
    (hkind : new.kind = row.kind) (hle : row.progressSeq ≤ new.progressSeq)
    (hfinal : row.terminal = true →
      new.status = row.status ∧ new.result = row.result ∧ new.progressSeq = row.progressSeq) :
    Onward j (j.set id new) := by
  intro id' row' hget'
  rw [Table.get?_set]
  split_ifs with hid
  · subst hid
    obtain rfl := Option.some.inj (hget.symm.trans hget')
    exact ⟨new, rfl, hkind, hle, hfinal⟩
  · exact ⟨row', hget', rfl, le_refl _, fun _ => ⟨rfl, rfl, rfl⟩⟩

theorem onward_insert {id : String} {new : JournalRow} (hget : j.get? id = none) :
    Onward j (j.set id new) := by
  intro id' row' hget'
  have hid : id' ≠ id := fun heq => by rw [heq, hget] at hget'; cases hget'
  exact ⟨row', by rw [Table.get?_set_of_ne _ _ hid, hget'], rfl, le_refl _,
    fun _ => ⟨rfl, rfl, rfl⟩⟩

/-- What an answer does to the journal: nothing, or the acknowledgement of its row. -/
theorem handleAnswer_cases (id : String) (row : JournalRow) (answer : ReportTaskResponse)
    (j : Journal) : handleAnswer id row answer j = j ∨
      (answer.terminal = true ∧ answer.committedSequence = row.progressSeq ∧
        ∃ old, j.get? id = some old ∧ old.progressSeq = row.progressSeq ∧ old.terminal = true ∧
          handleAnswer id row answer j = j.set id { old with acknowledged := true }) := by
  unfold handleAnswer
  by_cases hanswer : answer.terminal = true ∧ answer.committedSequence = row.progressSeq
  · rw [if_pos hanswer]
    cases hack : acknowledgeTask id row.progressSeq j with
    | error e => exact .inl rfl
    | ok j' =>
      obtain ⟨old, hget, hseq, hterminal, rfl⟩ := Daemon.acknowledgeTask_eq_ok hack
      exact .inr ⟨hanswer.1, hanswer.2, old, hget, hseq, hterminal, rfl⟩
  · rw [if_neg hanswer]
    exact .inl rfl

theorem onward_handleAnswer (id : String) (row : JournalRow) (answer : ReportTaskResponse)
    (j : Journal) : Onward j (handleAnswer id row answer j) := by
  rcases handleAnswer_cases id row answer j with heq | ⟨-, -, old, hget, -, -, heq⟩
  · rw [heq]
    exact .refl j
  · rw [heq]
    exact onward_set hget rfl (le_refl _) fun _ => ⟨rfl, rfl, rfl⟩

/-- The worker's task is not touched by a change to terminal rows and to new ones. -/
theorem WorkerOk.onward {worker : Worker} (h : WorkerOk j worker) (ho : Onward j j')
    (hlive : ∀ id row, j.get? id = some row → row.terminal = false → j'.get? id = some row) :
    WorkerOk j' worker := by
  cases worker with
  | idle => exact trivial
  | accepted id => obtain ⟨row, hget, hrow⟩ := h; exact ⟨row, hlive id row hget hrow, hrow⟩
  | executing id => obtain ⟨row, hget, hrow⟩ := h; exact ⟨row, hlive id row hget hrow, hrow⟩
  | finished id outcome =>
    obtain ⟨row, hget, hrow⟩ := h; exact ⟨row, hlive id row hget hrow, hrow⟩
  | numbered id report =>
    obtain ⟨row, hget, hrow, hrest⟩ := h; exact ⟨row, hlive id row hget hrow, hrow, hrest⟩
  | reporting id row => exact Holds.onward h ho
  | waiting id row => exact Holds.onward h ho

end JournalSide

/-! ## Steps -/

section Steps

variable {M : String} {codec : Panel.Codec} {reportCodec : ReportCodec} {w w' : TaskWorld}

/-- A call of the panel that reports none of the machine's plain tasks. -/
theorem Agree.panel (hw : Agree M codec reportCodec w) {now : Int} {entry : Panel.Entry}
    {panel : Database} (heffect : Panel.Effect codec now entry w.panel panel)
    (hforeign : ∀ id epoch i k, entry = .reported id epoch i k → id = M →
      ∀ t, w.panel.tasks.get? k = some t → plain t.kind = false) :
    Agree M codec reportCodec { w with panel } := by
  have hevolves := Panel.evolves_effect heffect
  refine ⟨?_, ?_, hw.results, hw.sent, hw.bounded, hw.increasing, hw.worker, hw.flushing, ?_, ?_, ?_⟩
  · intro id row hrow
    obtain ⟨t, ht, hM, hplain⟩ := hw.tasks id row hrow
    obtain ⟨t', ht', hlater⟩ := hevolves.get? ht
    exact ⟨t', ht', hlater.machineId.trans hM, by rw [hlater.kind, hplain]⟩
  · intro x hx
    obtain ⟨t, ht, hM, hkind⟩ := hw.replies x hx
    obtain ⟨t', ht', hlater⟩ := hevolves.get? ht
    exact ⟨t', ht', hlater.machineId.trans hM, hlater.kind.trans hkind⟩
  · exact fun x hx hterminal => (hw.answers x hx hterminal).evolves hevolves
  · intro id t' ht' hM hplain hdone
    rcases finished_effect heffect ht' hdone with ht | ⟨m, epoch, i, t, hentry, ht, hm⟩
    · exact hw.done id t' ht hM hplain hdone
    · obtain ⟨u, hu, hlater⟩ := hevolves.get? ht
      obtain rfl : u = t' := Option.some.inj (hu.symm.trans ht')
      have hmM : m = M := by rw [← hm, ← hlater.machineId, hM]
      have hfalse := hforeign m epoch i id hentry hmM t ht
      rw [hlater.kind, hfalse] at hplain
      cases hplain
  · exact fun id row hrow hack => (hw.acknowledged id row hrow hack).evolves hevolves

theorem foreign_reported {now : Int} {panel db : Database} {call : Call} {id i k : String}
    {epoch : Int} (hforeign : foreign M panel call)
    (hperform : Panel.perform codec now panel call = .ok (.reported id epoch i k, db)) :
    id = M → ∀ t, panel.tasks.get? k = some t → plain t.kind = false := by
  obtain ⟨header, request, row, rfl, rfl, hauth⟩ := perform_reported hperform
  simpa only [foreign, hauth] using hforeign

/-- The task an accept answers with is the panel's task. -/
theorem accept_returns {id taskId hash : String} {row : Panel.MachineRow} {sessionEpoch now : Int}
    {db db' : Database} {task : TaskRow}
    (h : Panel.accept id row sessionEpoch taskId hash now db = .ok (task, db')) :
    db'.tasks.get? taskId = some task := by
  simp only [Panel.accept, bind_eq_ok, failIf_eq_ok, Panel.findTask_eq_ok, exists_const] at h
  obtain ⟨epoch, -, -, old, htask, -, -, -, h⟩ := h
  by_cases hq : old.state = .queued
  · simp only [hq, ne_eq, not_true_eq_false, if_false, bind_eq_ok, failIf_eq_ok, pure_eq_ok,
      exists_const, Prod.mk.injEq] at h
    obtain ⟨-, rfl, rfl⟩ := h
    exact Table.get?_set_self _ _ _
  · simp only [ne_eq, hq, not_false_eq_true, if_true, pure_eq_ok, Prod.mk.injEq] at h
    obtain ⟨rfl, rfl⟩ := h
    exact htask.1

theorem Agree.acceptRequest (hw : Agree M codec reportCodec w) (now : Int)
    (header : Option String) (installation : Option Installation) (sessionEpoch : Int)
    (taskId hash : String) :
    Agree M codec reportCodec
      (w.acceptRequest M now header installation sessionEpoch taskId hash) := by
  unfold TaskWorld.acceptRequest
  cases haccept : Panel.acceptTask header installation sessionEpoch taskId hash now w.panel with
  | error e => exact hw
  | ok r =>
    obtain ⟨entry, task, panel⟩ := r
    simp only [Panel.acceptTask, bind_eq_ok, pure_eq_ok, Prod.exists, Prod.mk.injEq] at haccept
    obtain ⟨id, row, hauth, identity, hidentity, t, db, h, rfl, rfl, rfl⟩ := haccept
    have hreg := Panel.authenticate_eq_ok (Panel.authenticateActive_eq_ok.1 hauth).1
    have heffect := (Panel.accept_effect codec
      ⟨hreg, Panel.assertInstallation_eq_ok hidentity⟩ h).2
    have hnext := hw.panel heffect (fun _ _ _ _ hentry => by cases hentry)
    refine { hnext with replies := ?_ }
    intro x hx
    dsimp only at hx
    split_ifs at hx with hM
    · rcases List.mem_cons.1 hx with rfl | hx
      · exact ⟨t, accept_returns h, hM, rfl⟩
      · exact hnext.replies x hx
    · exact hnext.replies x hx

/-- A copy of a report of the daemon reaches the panel. -/
theorem Agree.deliver (hw : Agree M codec reportCodec w) {now : Int} {header : Option String}
    {report : ReportTaskRequest} (hsent : report ∈ w.reports) :
    Agree M codec reportCodec (w.deliver codec now header report) := by
  unfold TaskWorld.deliver
  cases hsubmit : Panel.submitReport codec header report now w.panel with
  | error e => exact hw
  | ok r =>
    obtain ⟨entry, answer, panel⟩ := r
    simp only [Panel.submitReport, bind_eq_ok, pure_eq_ok, Prod.exists, Prod.mk.injEq] at hsubmit
    obtain ⟨id, mrow, hauth, identity, hidentity, answer', db, h, rfl, rfl, rfl⟩ := hsubmit
    have heffect := Panel.reportTask_effect ⟨Panel.authenticate_eq_ok hauth,
      Panel.assertInstallation_eq_ok hidentity⟩ h
    have hevolves := Panel.evolves_effect heffect
    -- The reported task is a plain task of this machine.
    obtain ⟨⟨row, hrow, hstate⟩, hassigned⟩ := hw.sent report hsent
    obtain ⟨t, ht, hM, hplain⟩ := hw.tasks report.taskId row hrow
    obtain ⟨task, htask, hcases⟩ := Panel.reportTask_eq_ok h
    obtain rfl : task = t := Option.some.inj (htask.1.symm.trans ht)
    rcases hcases with ⟨-, rfl, rfl, -⟩ | ⟨hseq, -, hstore⟩
    · refine { hw with answers := ?_ }
      intro x hx hterminal
      rcases List.mem_cons.1 hx with rfl | hx
      · have hdone : finished task.state := by simpa [finished] using hterminal
        exact ⟨task, ht, hM, hplain, hdone, rfl⟩
      · exact hw.answers x hx hterminal
    · obtain ⟨hactive, state, diagnostic, hrs, hdiag, rfl, rfl⟩ := Panel.storeReport_eq_ok hstore
      rw [storedReport_of_plain hplain] at hevolves ⊢
      have hself : ((w.panel.setTask report.taskId (Panel.reportedTask task report state
          (sha256 (codec.reportTaskToBinary report)) diagnostic now)).tasks.get? report.taskId) =
          some (Panel.reportedTask task report state
            (sha256 (codec.reportTaskToBinary report)) diagnostic now) :=
        Table.get?_set_self _ _ _
      constructor
      · intro id' row' hrow'
        obtain ⟨u, hu, huM, hup⟩ := hw.tasks id' row' hrow'
        obtain ⟨u', hu', hlater⟩ := hevolves.get? hu
        exact ⟨u', hu', hlater.machineId.trans huM, by rw [hlater.kind, hup]⟩
      · intro x hx
        obtain ⟨u, hu, huM, huk⟩ := hw.replies x hx
        obtain ⟨u', hu', hlater⟩ := hevolves.get? hu
        exact ⟨u', hu', hlater.machineId.trans huM, hlater.kind.trans huk⟩
      · exact hw.results
      · exact hw.sent
      · exact hw.bounded
      · exact hw.increasing
      · exact hw.worker
      · exact hw.flushing
      · intro x hx hterminal
        rcases List.mem_cons.1 hx with rfl | hx
        · refine ⟨_, hself, hM, hplain, ?_, rfl⟩
          have hne : state ≠ .running := by simpa using hterminal
          show finished state
          cases hreq : report.state <;> simp [hreq, Panel.reportedState] at hrs <;>
            simp_all [finished]
        · exact (hw.answers x hx hterminal).evolves hevolves
      · intro id' u hu huM hup hdone
        by_cases hid : id' = report.taskId
        · -- The report that finishes the task is the stored result.
          subst hid
          obtain rfl := Option.some.inj (hself.symm.trans hu)
          have hdone' : finished state := hdone
          rcases hstate with hrunning | ⟨hterminal, rep, hrep, heq⟩
          · rw [hrunning] at hrs
            obtain rfl := Option.some.inj hrs
            rcases hdone' with hd | hd <;> cases hd
          · refine ⟨row, rep, hrow, hterminal, hrep, ?_⟩
            rw [heq] at hrs hdiag
            rw [heq]
            exact ⟨hrs, rfl, rfl, rfl, rfl, rfl, rfl, hdiag⟩
        · rw [Database.setTask, Table.get?_set_of_ne _ _ hid] at hu
          exact hw.done id' u hu huM hup hdone
      · exact fun id' row' hrow' hack => (hw.acknowledged id' row' hrow' hack).evolves hevolves

/-- A step of a thread that writes no database. -/
theorem Agree.thread (hw : Agree M codec reportCodec w) (worker : Worker)
    {flushing : List (String × JournalRow)} {reports : List ReportTaskRequest}
    (hworker : WorkerOk w.journal worker) (hflushing : ∀ x ∈ flushing, Holds w.journal x)
    (hreports : ∀ r ∈ reports, r ∈ w.reports ∨
      Sent reportCodec w.journal r ∧ (r.taskId, r.sequence) ∈ w.assigned) :
    Agree M codec reportCodec { w with worker, flushing, reports } := by
  refine { hw with worker := hworker, flushing := hflushing, sent := ?_ }
  intro r hr
  rcases hreports r hr with hold | hnew
  · exact hw.sent r hold
  · exact hnew

/-- A write of one journal row, with what its sequence and its new result must satisfy. -/
theorem Agree.setRow (hw : Agree M codec reportCodec w) {id : String} {old : JournalRow}
    (new : JournalRow) {worker : Worker} {flushing : List (String × JournalRow)}
    {reports : List ReportTaskRequest} {assigned : List (String × Int)}
    (hget : w.journal.get? id = some old)
    (hkind : new.kind = old.kind) (hle : old.progressSeq ≤ new.progressSeq)
    (hfinal : old.terminal = true →
      new.status = old.status ∧ new.result = old.result ∧ new.progressSeq = old.progressSeq)
    (hassigned : assigned = w.assigned ∨
      assigned = (id, new.progressSeq) :: w.assigned ∧ old.progressSeq < new.progressSeq)
    (hresult : new.terminal = true → (id, new.progressSeq) ∈ assigned ∧
      ∃ rep, reportOf reportCodec new = some rep ∧ rep.taskId = id ∧
        rep.sequence = new.progressSeq ∧ (rep.state = .succeeded ∨ rep.state = .failed))
    (hack : new.acknowledged = true → Committed M w.panel id new.progressSeq)
    (hworker : WorkerOk (w.journal.set id new) worker)
    (hflushing : ∀ x ∈ flushing, x ∈ w.flushing)
    (hreports : ∀ r ∈ reports, r ∈ w.reports ∨
      Sent reportCodec (w.journal.set id new) r ∧ (r.taskId, r.sequence) ∈ assigned)
    (started : List String) :
    Agree M codec reportCodec { w with journal := w.journal.set id new, worker, flushing, reports
                                       assigned, started } := by
  have ho : Onward w.journal (w.journal.set id new) := onward_set hget hkind hle hfinal
  have hmem : ∀ x ∈ w.assigned, x ∈ assigned := by
    intro x hx
    rcases hassigned with rfl | ⟨rfl, -⟩
    · exact hx
    · exact List.mem_cons_of_mem _ hx
  have hrows : ∀ id' row', (w.journal.set id new).get? id' = some row' →
      id' = id ∧ row' = new ∨ id' ≠ id ∧ w.journal.get? id' = some row' := by
    intro id' row' hrow'
    rw [Table.get?_set] at hrow'
    split_ifs at hrow' with hid
    · exact .inl ⟨hid, (Option.some.inj hrow').symm⟩
    · exact .inr ⟨hid, hrow'⟩
  constructor
  · intro id' row' hrow'
    rcases hrows id' row' hrow' with ⟨rfl, -⟩ | ⟨-, hrow'⟩
    · exact hw.tasks id' old hget
    · exact hw.tasks id' row' hrow'
  · exact hw.replies
  · intro id' row' hrow' hterminal
    rcases hrows id' row' hrow' with ⟨rfl, rfl⟩ | ⟨-, hrow'⟩
    · exact hresult hterminal
    · obtain ⟨hin, hrep⟩ := hw.results id' row' hrow' hterminal
      exact ⟨hmem _ hin, hrep⟩
  · intro r hr
    rcases hreports r hr with hr | hr
    · obtain ⟨hs, hin⟩ := hw.sent r hr
      exact ⟨hs.onward ho, hmem _ hin⟩
    · exact hr
  · intro x hx
    have hbound : ∀ x ∈ w.assigned, ∃ row, (w.journal.set id new).get? x.1 = some row ∧
        x.2 ≤ row.progressSeq := by
      intro x hx
      obtain ⟨row, hrow, hxle⟩ := hw.bounded x hx
      obtain ⟨row', hrow', -, hle', -⟩ := ho x.1 row hrow
      exact ⟨row', hrow', hxle.trans hle'⟩
    rcases hassigned with rfl | ⟨rfl, -⟩
    · exact hbound x hx
    · rcases List.mem_cons.1 hx with rfl | hx
      · exact ⟨new, by simp, le_refl _⟩
      · exact hbound x hx
  · rcases hassigned with rfl | ⟨rfl, hlt⟩
    · exact hw.increasing
    · refine List.pairwise_cons.2 ⟨fun x hx hid => ?_, hw.increasing⟩
      obtain ⟨row, hrow, hxle⟩ := hw.bounded x hx
      obtain rfl : row = old := by
        rw [← show id = x.1 from hid, hget] at hrow
        exact (Option.some.inj hrow).symm
      exact lt_of_le_of_lt hxle hlt
  · exact hworker
  · exact fun x hx => (hw.flushing x (hflushing x hx)).onward ho
  · exact hw.answers
  · intro id' t ht hM hplain hdone
    obtain ⟨row, rep, hrow, hterminal, hrep, hcarries⟩ := hw.done id' t ht hM hplain hdone
    obtain ⟨row', hrow', -, -, hfinal'⟩ := ho id' row hrow
    obtain ⟨hs, hr, -⟩ := hfinal' hterminal
    exact ⟨row', rep, hrow', by rw [terminal_congr hs, hterminal],
      by rw [reportOf_congr hr, hrep], hcarries⟩
  · intro id' row' hrow' hack'
    rcases hrows id' row' hrow' with ⟨rfl, rfl⟩ | ⟨-, hrow'⟩
    · exact hack hack'
    · exact hw.acknowledged id' row' hrow' hack'

/-- An answer to a result that was sent. -/
theorem Agree.answer (hw : Agree M codec reportCodec w) {id : String} {row : JournalRow}
    {answer : ReportTaskResponse}
    (hanswer : (id, answer) ∈ w.answers) {worker : Worker}
    {flushing : List (String × JournalRow)} (hworker : WorkerOk w.journal worker)
    (hflushing : ∀ x ∈ flushing, x ∈ w.flushing) :
    Agree M codec reportCodec
      { w with journal := handleAnswer id row answer w.journal, worker, flushing } := by
  rcases handleAnswer_cases id row answer w.journal with
    heq | ⟨hterminal, hseq, old, hget, hold, hfinal, heq⟩
  · rw [heq]
    exact hw.thread worker hworker (fun x hx => hw.flushing x (hflushing x hx)) fun r hr => .inl hr
  · rw [heq]
    have hcommitted := hw.answers (id, answer) hanswer hterminal
    have hseq' : answer.committedSequence = old.progressSeq := hseq.trans hold.symm
    refine hw.setRow { old with acknowledged := true } hget rfl (le_refl _)
      (fun _ => ⟨rfl, rfl, rfl⟩) (.inl rfl) ?_ ?_ ?_ hflushing (fun r hr => .inl hr) w.started
    · exact fun _ => hw.results id old hget hfinal
    · intro _
      rw [hseq'] at hcommitted
      exact hcommitted
    · refine hworker.onward (onward_set hget rfl (le_refl _) fun _ => ⟨rfl, rfl, rfl⟩) ?_
      intro id' row' hrow' hlive
      have hid : id' ≠ id := fun h => by
        rw [h, hget] at hrow'
        obtain rfl := Option.some.inj hrow'
        rw [hfinal] at hlive
        cases hlive
      rw [Table.get?_set_of_ne _ _ hid, hrow']

/-- The result `reportResult` sends. -/
theorem Agree.result (hw : Agree M codec reportCodec w) {x : String × JournalRow}
    (hholds : Holds w.journal x) {report : ReportTaskRequest}
    (hreport : resultReport reportCodec w.installation x.2 = some report) :
    Sent reportCodec w.journal report ∧ (report.taskId, report.sequence) ∈ w.assigned := by
  obtain ⟨row, hget, hterminal, hresult, hseq⟩ := hholds
  obtain ⟨hin, rep, hrep, hid, hrepseq, -⟩ := hw.results x.1 row hget hterminal
  have hsame : report = { rep with installation := some w.installation } := by
    unfold resultReport at hreport
    unfold reportOf at hrep
    rw [hresult] at hrep
    cases hx : x.2.result with
    | none => simp [hx] at hrep
    | some bytes =>
      simp only [hx, Option.bind_some] at hrep
      simp only [hx, Option.getD_some, hrep] at hreport
      exact (Option.some.inj hreport).symm
  subst hsame
  refine ⟨⟨row, by rw [hid]; exact hget, .inr ⟨hterminal, rep, hrep, rfl⟩⟩, ?_⟩
  show (rep.taskId, rep.sequence) ∈ w.assigned
  rw [hid, hrepseq]
  exact hin

theorem terminal_advance {row : JournalRow} {status : Daemon.JournalStatus} {result : Option Bytes} :
    (row.advance status result).terminal = (status = .succeeded || status = .failed) := rfl

/-- A row that is live was never acknowledged by this daemon: its task is not finished. -/
theorem Agree.not_acknowledged (hw : Agree M codec reportCodec w) {id : String} {row : JournalRow}
    (hget : w.journal.get? id = some row) (hlive : row.terminal = false) :
    row.acknowledged = false := by
  by_contra hack
  rw [Bool.not_eq_false] at hack
  obtain ⟨t, ht, hM, hplain, hdone, -⟩ := hw.acknowledged id row hget hack
  obtain ⟨row', rep, hrow', hterminal, -⟩ := hw.done id t ht hM hplain hdone
  obtain rfl := Option.some.inj (hget.symm.trans hrow')
  rw [hlive] at hterminal
  cases hterminal

theorem Agree.receiveReply (hw : Agree M codec reportCodec w) {id : String} {task : TaskRow}
    (hreply : (id, task) ∈ w.replies) (hplain : plain task.kind = true) :
    Agree M codec reportCodec (w.receiveReply id task) ∧
      Onward w.journal (w.receiveReply id task).journal := by
  unfold TaskWorld.receiveReply
  split_ifs with hchecks
  · cases haccept : Daemon.acceptTask id task.payloadHash task.kind task.payload task.bindingEpoch
      w.journal with
    | error e => exact ⟨hw, .refl _⟩
    | ok r =>
      obtain ⟨row, journal⟩ := r
      rcases Daemon.acceptTask_eq_ok haccept with ⟨hget, rfl⟩ | ⟨hnone, hrow, rfl⟩
      · refine ⟨?_, .refl _⟩
        refine hw.thread _ ?_ hw.flushing fun r hr => .inl hr
        split_ifs with hterminal
        · exact ⟨row, hget, hterminal, rfl, rfl⟩
        · exact ⟨row, hget, by simpa using hterminal⟩
      · -- A new row: nothing refers to it yet.
        have ho : Onward w.journal (w.journal.set id row) := onward_insert hnone
        have hlive : row.terminal = false := by rw [hrow]; rfl
        obtain ⟨t, ht, hM, hkind⟩ := hw.replies (id, task) hreply
        refine ⟨?_, ho⟩
        constructor
        · intro id' row' hrow'
          rw [Table.get?_set] at hrow'
          split_ifs at hrow' with hid
          · exact ⟨t, by rw [hid]; exact ht, hM, by rw [hkind, hplain]⟩
          · exact hw.tasks id' row' hrow'
        · exact hw.replies
        · intro id' row' hrow' hterminal
          rw [Table.get?_set] at hrow'
          split_ifs at hrow' with hid
          · rw [← Option.some.inj hrow', hlive] at hterminal
            cases hterminal
          · exact hw.results id' row' hrow' hterminal
        · exact fun r hr => ⟨(hw.sent r hr).1.onward ho, (hw.sent r hr).2⟩
        · intro x hx
          obtain ⟨row', hrow', hle⟩ := hw.bounded x hx
          obtain ⟨row'', hrow'', -, hle', -⟩ := ho x.1 row' hrow'
          exact ⟨row'', hrow'', hle.trans hle'⟩
        · exact hw.increasing
        · show WorkerOk (w.journal.set id row)
            (if row.terminal = true then .reporting id row else .accepted id)
          rw [hlive]
          exact ⟨row, Table.get?_set_self _ _ _, hlive⟩
        · exact fun x hx => (hw.flushing x hx).onward ho
        · exact hw.answers
        · intro id' u hu huM hup hdone
          obtain ⟨row', rep, hrow', hterminal, hrep, hcarries⟩ := hw.done id' u hu huM hup hdone
          have hid : id' ≠ id := fun h => by rw [h, hnone] at hrow'; cases hrow'
          exact ⟨row', rep, by rw [Table.get?_set_of_ne _ _ hid, hrow'], hterminal, hrep, hcarries⟩
        · intro id' row' hrow' hack
          rw [Table.get?_set] at hrow'
          split_ifs at hrow' with hid
          · rw [← Option.some.inj hrow', hrow] at hack
            cases hack
          · exact hw.acknowledged id' row' hrow' hack
  · exact ⟨hw, .refl _⟩

/-- An operation starts only for a task without a result. -/
theorem Agree.begin (hw : Agree M codec reportCodec w) {id : String}
    (hworker : w.worker = .accepted id) :
    Agree M codec reportCodec (w.begin id) ∧ Onward w.journal (w.begin id).journal ∧
      ∀ id' row, w.journal.get? id' = some row → row.terminal = true →
        (w.begin id).started.count id' = w.started.count id' := by
  have hok := hw.worker
  rw [hworker] at hok
  obtain ⟨old, hget, hlive⟩ := hok
  unfold TaskWorld.begin
  cases htransition : transition id .running none w.journal with
  | error e =>
    exact ⟨hw.thread .idle trivial hw.flushing fun r hr => .inl hr, .refl _, fun _ _ _ _ => rfl⟩
  | ok r =>
    obtain ⟨row, journal⟩ := r
    obtain ⟨old', hget', ⟨hterminal, -⟩ | ⟨-, -, rfl, rfl⟩⟩ := Daemon.transition_eq_ok htransition
    · obtain rfl := Option.some.inj (hget.symm.trans hget')
      rw [hlive] at hterminal
      cases hterminal
    obtain rfl := Option.some.inj (hget.symm.trans hget')
    have hlt : old.progressSeq < (old.advance .running none).progressSeq := Int.lt_succ _
    refine ⟨?_, onward_set hget rfl hlt.le (fun h => by rw [hlive] at h; cases h), ?_⟩
    · refine hw.setRow (old.advance .running none) hget rfl hlt.le
        (fun h => by rw [hlive] at h; cases h) (.inr ⟨rfl, hlt⟩) (fun h => by cases h) ?_ ?_
        (fun _ h => h) ?_ _
      · intro hack
        have hnot := hw.not_acknowledged hget hlive
        rw [show old.acknowledged = true from hack] at hnot
        cases hnot
      · exact ⟨_, Table.get?_set_self _ _ _, rfl⟩
      · intro r hr
        rcases List.mem_cons.1 hr with rfl | hr
        · exact .inr ⟨⟨_, Table.get?_set_self _ _ _, .inl rfl⟩, List.mem_cons_self⟩
        · exact .inl hr
    · intro id' row' hrow' hterminal
      have hid : id' ≠ id := fun h => by
        rw [h, hget] at hrow'
        obtain rfl := Option.some.inj hrow'
        rw [hlive] at hterminal
        cases hterminal
      exact List.count_cons_of_ne (Ne.symm hid)

/-- The terminal outcome is stored with the sequence it was numbered with. -/
theorem Agree.store (hw : Agree M codec reportCodec w) {id : String} {report : ReportTaskRequest}
    (hworker : w.worker = .numbered id report) :
    Agree M codec reportCodec (w.store reportCodec id report) ∧
      Onward w.journal (w.store reportCodec id report).journal := by
  have hok := hw.worker
  rw [hworker] at hok
  obtain ⟨old, hget, hlive, hid, hseq, hstate⟩ := hok
  have hidle : Agree M codec reportCodec { w with worker := .idle } :=
    hw.thread .idle trivial hw.flushing fun r hr => .inl hr
  unfold TaskWorld.store
  cases hmarshal : reportCodec.marshal report with
  | none => exact ⟨hidle, .refl _⟩
  | some encoded =>
    dsimp only
    cases htransition : transition id (statusOf report) (some encoded) w.journal with
    | error e => exact ⟨hidle, .refl _⟩
    | ok r =>
      obtain ⟨row, journal⟩ := r
      obtain ⟨old', hget', ⟨hterminal, -⟩ | ⟨-, -, rfl, rfl⟩⟩ :=
        Daemon.transition_eq_ok htransition
      · obtain rfl := Option.some.inj (hget.symm.trans hget')
        rw [hlive] at hterminal
        cases hterminal
      obtain rfl := Option.some.inj (hget.symm.trans hget')
      have hlt : old.progressSeq < (old.advance (statusOf report) (some encoded)).progressSeq :=
        Int.lt_succ _
      have hterminal : (old.advance (statusOf report) (some encoded)).terminal = true := by
        rw [terminal_advance]
        unfold statusOf
        split_ifs <;> rfl
      have hrep : reportOf reportCodec (old.advance (statusOf report) (some encoded)) =
          some report := reportCodec.unmarshal_marshal report encoded hmarshal
      have hnew : (w.journal.set id (old.advance (statusOf report) (some encoded))).get? id =
          some (old.advance (statusOf report) (some encoded)) := Table.get?_set_self _ _ _
      refine ⟨?_, onward_set hget rfl hlt.le (fun h => by rw [hlive] at h; cases h)⟩
      refine hw.setRow (old.advance (statusOf report) (some encoded)) hget rfl hlt.le
        (fun h => by rw [hlive] at h; cases h) (.inr ⟨rfl, hlt⟩) ?_ ?_ ?_ (fun _ h => h)
        (fun r hr => .inl hr) w.started
      · exact fun _ => ⟨List.mem_cons_self, report, hrep, hid, hseq, hstate⟩
      · intro hack
        have hnot := hw.not_acknowledged hget hlive
        rw [show old.acknowledged = true from hack] at hnot
        cases hnot
      · exact ⟨_, hnew, hterminal, rfl, rfl⟩

/-- The results a flush reads from the journal. -/
theorem holds_pendingResults {j : Journal} {x : String × JournalRow} (h : x ∈ pendingResults j) :
    Holds j x := by
  obtain ⟨hmem, hprop⟩ := List.mem_filter.1 h
  simp only [Bool.and_eq_true] at hprop
  exact ⟨x.2, Table.get?_of_mem hmem, hprop.2, rfl, rfl⟩

/-- What a step keeps: the agreement. It moves the journal on, starts no task that has a result and
keeps the tasks of the panel. -/
structure Progress (M : String) (codec : Panel.Codec) (reportCodec : ReportCodec)
    (w w' : TaskWorld) : Prop where
  agree : Agree M codec reportCodec w'
  onward : Onward w.journal w'.journal
  started : ∀ id row, w.journal.get? id = some row → row.terminal = true →
    w'.started.count id = w.started.count id
  evolves : Panel.Evolves w.panel.tasks w'.panel.tasks

/-- A step that writes neither database. -/
theorem Agree.stay (h : Agree M codec reportCodec w') (hjournal : w'.journal = w.journal)
    (hstarted : w'.started = w.started) (hpanel : w'.panel = w.panel) :
    Progress M codec reportCodec w w' where
  agree := h
  onward := by
    rw [hjournal]
    exact .refl _
  started id row _ _ := by rw [hstarted]
  evolves := by
    rw [hpanel]
    exact .refl _

theorem Progress.refl (hw : Agree M codec reportCodec w) : Progress M codec reportCodec w w :=
  hw.stay rfl rfl rfl

theorem Progress.trans {w₁ w₂ : TaskWorld} (h : Progress M codec reportCodec w w₁)
    (h' : Progress M codec reportCodec w₁ w₂) : Progress M codec reportCodec w w₂ where
  agree := h'.agree
  onward := h.onward.trans h'.onward
  started id row hrow hterminal := by
    obtain ⟨row', hrow', -, -, hfinal⟩ := h.onward id row hrow
    have hterminal' : row'.terminal = true := by
      rw [terminal_congr (hfinal hterminal).1, hterminal]
    exact (h'.started id row' hrow' hterminal').trans (h.started id row hrow hterminal)
  evolves := h.evolves.trans h'.evolves

/-- A thread moves and sends nothing. -/
theorem Agree.quiet (hw : Agree M codec reportCodec w) (worker : Worker)
    {flushing : List (String × JournalRow)} (hworker : WorkerOk w.journal worker)
    (hflushing : ∀ x ∈ flushing, Holds w.journal x) :
    Progress M codec reportCodec w { w with worker, flushing } :=
  (hw.thread worker hworker hflushing fun _ hr => .inl hr).stay rfl rfl rfl

/-- The worker gives up what it is at. -/
theorem Agree.idle (hw : Agree M codec reportCodec w) :
    Progress M codec reportCodec w { w with worker := .idle } :=
  hw.quiet .idle trivial hw.flushing

/-- The session gives up what it flushes. -/
theorem Agree.unflushed (hw : Agree M codec reportCodec w) :
    Progress M codec reportCodec w { w with flushing := [] } :=
  hw.quiet w.worker hw.worker fun _ hx => absurd hx List.not_mem_nil

/-! ### The panel -/

theorem progress_panel (hw : Agree M codec reportCodec w) (now : Int) (call : Call) :
    Progress M codec reportCodec w (w.step M codec reportCodec (.panel now call)) := by
  simp only [TaskWorld.step]
  split_ifs with hforeign
  · cases hperform : Panel.perform codec now w.panel call with
    | error e => exact .refl hw
    | ok r =>
      obtain ⟨entry, panel⟩ := r
      have heffect := Panel.perform_effect hperform
      refine ⟨hw.panel heffect ?_, .refl _, fun _ _ _ _ => rfl, Panel.evolves_effect heffect⟩
      rintro id epoch i k rfl
      exact foreign_reported hforeign hperform
  · exact .refl hw

theorem progress_acceptRequest (hw : Agree M codec reportCodec w) (now : Int)
    (header : Option String) (installation : Option Installation) (sessionEpoch : Int)
    (taskId hash : String) :
    Progress M codec reportCodec w
      (w.acceptRequest M now header installation sessionEpoch taskId hash) := by
  have hnext := hw.acceptRequest now header installation sessionEpoch taskId hash
  unfold TaskWorld.acceptRequest at hnext ⊢
  cases haccept : Panel.acceptTask header installation sessionEpoch taskId hash now w.panel with
  | error e => exact .refl hw
  | ok r =>
    obtain ⟨entry, task, panel⟩ := r
    rw [haccept] at hnext
    have hperform : Panel.perform codec now w.panel
        (.acceptTask header installation sessionEpoch taskId hash) = .ok (entry, panel) := by
      simp only [Panel.perform, haccept]
      rfl
    exact ⟨hnext, .refl _, fun _ _ _ _ => rfl, Panel.evolves_effect (Panel.perform_effect hperform)⟩

theorem progress_deliver (hw : Agree M codec reportCodec w) (now : Int) (header : Option String)
    {report : ReportTaskRequest} (hsent : report ∈ w.reports) :
    Progress M codec reportCodec w (w.deliver codec now header report) := by
  have hnext : Agree M codec reportCodec (w.deliver codec now header report) := hw.deliver hsent
  unfold TaskWorld.deliver at hnext ⊢
  cases hsubmit : Panel.submitReport codec header report now w.panel with
  | error e => exact .refl hw
  | ok r =>
    obtain ⟨entry, answer, panel⟩ := r
    rw [hsubmit] at hnext
    have hperform : Panel.perform codec now w.panel (.reportTask header report) =
        .ok (entry, panel) := by
      simp only [Panel.perform, hsubmit]
      rfl
    exact ⟨hnext, .refl _, fun _ _ _ _ => rfl, Panel.evolves_effect (Panel.perform_effect hperform)⟩

/-! ### The worker -/

theorem progress_receiveReply (hw : Agree M codec reportCodec w) {id : String} {task : TaskRow}
    (hreply : (id, task) ∈ w.replies) (hplain : plain task.kind = true) :
    Progress M codec reportCodec w (w.receiveReply id task) := by
  obtain ⟨hnext, ho⟩ := hw.receiveReply hreply hplain
  refine ⟨hnext, ho, fun id' row _ _ => ?_, ?_⟩
  · unfold TaskWorld.receiveReply
    split_ifs
    · split <;> rfl
    · rfl
  · unfold TaskWorld.receiveReply
    split_ifs
    · split <;> exact .refl _
    · exact .refl _

theorem progress_begin (hw : Agree M codec reportCodec w) {id : String}
    (hworker : w.worker = .accepted id) : Progress M codec reportCodec w (w.begin id) := by
  obtain ⟨hnext, ho, hstarted⟩ := hw.begin hworker
  refine ⟨hnext, ho, hstarted, ?_⟩
  unfold TaskWorld.begin
  split <;> exact .refl _

/-- The terminal report is numbered after its row. -/
theorem progress_number (hw : Agree M codec reportCodec w) {id : String} {outcome : Outcome}
    (hworker : w.worker = .finished id outcome) :
    Progress M codec reportCodec w (w.step M codec reportCodec .number) := by
  have hok := hw.worker
  rw [hworker] at hok
  obtain ⟨row, hget, hlive⟩ := hok
  simp only [TaskWorld.step, hworker, hget]
  refine hw.quiet (.numbered id (finalReport id w.installation row outcome))
    ⟨row, hget, hlive, rfl, rfl, ?_⟩ hw.flushing
  unfold finalReport
  dsimp only
  split_ifs
  · exact .inl rfl
  · exact .inr rfl

theorem progress_store (hw : Agree M codec reportCodec w) {id : String} {report : ReportTaskRequest}
    (hworker : w.worker = .numbered id report) :
    Progress M codec reportCodec w (w.store reportCodec id report) := by
  obtain ⟨hnext, ho⟩ := hw.store hworker
  refine ⟨hnext, ho, fun id' row _ _ => ?_, ?_⟩
  · unfold TaskWorld.store
    split
    · rfl
    · split <;> rfl
  · unfold TaskWorld.store
    split
    · exact .refl _
    · split <;> exact .refl _

theorem progress_send (hw : Agree M codec reportCodec w) {id : String} {row : JournalRow}
    (hworker : w.worker = .reporting id row) :
    Progress M codec reportCodec w (w.step M codec reportCodec .send) := by
  have hok := hw.worker
  rw [hworker] at hok
  simp only [TaskWorld.step, hworker]
  split
  · rename_i report hreport
    refine (hw.thread (.waiting id row) hok hw.flushing fun r hr => ?_).stay rfl rfl rfl
    rcases List.mem_cons.1 hr with rfl | hr
    · exact .inr (hw.result hok hreport)
    · exact .inl hr
  · exact hw.idle

theorem progress_receiveAnswer (hw : Agree M codec reportCodec w) {id : String} {row : JournalRow}
    {answer : ReportTaskResponse} (hanswer : (id, answer) ∈ w.answers) :
    Progress M codec reportCodec w
      { w with journal := handleAnswer id row answer w.journal, worker := .idle } where
  agree := hw.answer hanswer trivial fun _ h => h
  onward := onward_handleAnswer id row answer _
  started _ _ _ _ := rfl
  evolves := .refl _

/-! ### The session -/

theorem progress_flushSend (hw : Agree M codec reportCodec w) {x : String × JournalRow}
    (hx : x ∈ w.flushing) : Progress M codec reportCodec w (w.flushSend reportCodec x.2) := by
  unfold TaskWorld.flushSend
  split_ifs with hepoch
  · exact hw.unflushed
  · split
    · rename_i report hreport
      refine (hw.thread w.worker hw.worker hw.flushing fun r hr => ?_).stay rfl rfl rfl
      rcases List.mem_cons.1 hr with rfl | hr
      · exact .inr (hw.result (hw.flushing x hx) hreport)
      · exact .inl hr
    · exact hw.unflushed

theorem progress_flushAnswer (hw : Agree M codec reportCodec w) {x : String × JournalRow}
    {rest : List (String × JournalRow)} (hflushing : w.flushing = x :: rest)
    {answer : ReportTaskResponse} (hanswer : (x.1, answer) ∈ w.answers) :
    Progress M codec reportCodec w
      { w with journal := handleAnswer x.1 x.2 answer w.journal, flushing := rest } where
  agree := hw.answer hanswer hw.worker fun y hy => by
    rw [hflushing]
    exact List.mem_cons_of_mem x hy
  onward := onward_handleAnswer x.1 x.2 answer _
  started _ _ _ _ := rfl
  evolves := .refl _

/-- One step keeps the agreement, moves the journal on, starts no task that has a result and
keeps the tasks of the panel. -/
theorem agree_step (hw : Agree M codec reportCodec w) (event : TaskEvent) :
    Progress M codec reportCodec w (w.step M codec reportCodec event) := by
  cases event with
  | panel now call => exact progress_panel hw now call
  | acceptRequest now header installation sessionEpoch taskId hash =>
    exact progress_acceptRequest hw now header installation sessionEpoch taskId hash
  | deliver now header report =>
    simp only [TaskWorld.step]
    split_ifs with hsent
    · exact progress_deliver hw now header hsent
    · exact .refl hw
  | receiveReply reply =>
    simp only [TaskWorld.step]
    split
    · split_ifs with hreply
      · exact progress_receiveReply hw hreply.1 hreply.2
      · exact .refl hw
    · exact .refl hw
  | begin =>
    simp only [TaskWorld.step]
    split
    · rename_i id hworker
      exact progress_begin hw hworker
    · exact .refl hw
  | finish outcome =>
    simp only [TaskWorld.step]
    split
    · rename_i id hworker
      have hok := hw.worker
      rw [hworker] at hok
      exact hw.quiet (.finished id outcome) hok hw.flushing
    · exact .refl hw
  | number =>
    cases hworker : w.worker with
    | finished id outcome => exact progress_number hw hworker
    | _ =>
      simp only [TaskWorld.step, hworker]
      exact .refl hw
  | store =>
    simp only [TaskWorld.step]
    split
    · rename_i id report hworker
      exact progress_store hw hworker
    · exact .refl hw
  | send =>
    cases hworker : w.worker with
    | reporting id row => exact progress_send hw hworker
    | _ =>
      simp only [TaskWorld.step, hworker]
      exact .refl hw
  | receiveAnswer answer =>
    simp only [TaskWorld.step]
    split
    · split_ifs with hanswer
      · exact progress_receiveAnswer hw hanswer
      · exact .refl hw
    · exact .refl hw
  | flush =>
    simp only [TaskWorld.step]
    split
    · exact hw.quiet w.worker hw.worker fun x hx => holds_pendingResults hx
    · exact .refl hw
  | flushSend =>
    simp only [TaskWorld.step]
    split
    · exact .refl hw
    · rename_i x rest hflushing
      exact progress_flushSend hw (by rw [hflushing]; exact List.mem_cons_self)
  | flushAnswer answer =>
    simp only [TaskWorld.step]
    split
    · exact .refl hw
    · rename_i x rest hflushing
      split_ifs with hanswer
      · exact progress_flushAnswer hw hflushing hanswer
      · exact .refl hw
  | giveUp => exact hw.idle
  | flushGiveUp => exact hw.unflushed
  | crash => exact hw.quiet .idle trivial fun _ hx => absurd hx List.not_mem_nil
  | rebind installation => exact Agree.stay { hw with } rfl rfl rfl

/-- A whole run keeps what every step keeps. -/
theorem agree_run (hw : Agree M codec reportCodec w) (events : List TaskEvent) :
    Progress M codec reportCodec w (w.run M codec reportCodec events) := by
  induction events generalizing w with
  | nil => exact .refl hw
  | cons event events ih =>
    have hstep := agree_step hw event
    exact hstep.trans (ih hstep.agree)

end Steps

theorem agree_init (M : String) (codec : Panel.Codec) (reportCodec : ReportCodec)
    (installation : Installation) : Agree M codec reportCodec (.init installation) where
  tasks := fun id row h => by simp [TaskWorld.init] at h
  replies := fun x hx => by cases hx
  results := fun id row h => by simp [TaskWorld.init] at h
  sent := fun x hx => by cases hx
  bounded := fun x hx => by cases hx
  increasing := .nil
  worker := trivial
  flushing := fun x hx => by cases hx
  answers := fun x hx => by cases hx
  done := fun id t h => by simp [TaskWorld.init, Database.empty] at h
  acknowledged := fun id row h => by simp [TaskWorld.init] at h

/-! ## The theorem -/

/-- In every run, in every state it reaches: a stored result stays as it is and its task is never
started again; the sequences assigned to a task increase, and every report sent carries one of
them; a plain task the panel has finished carries the stored result, and is not written again; a
report at or below the panel's sequence changes nothing there; and an acknowledged row was
committed by the panel under its sequence. -/
theorem tasks_agree (M : String) (codec : Panel.Codec) (reportCodec : ReportCodec)
    (installation : Installation) (events : List TaskEvent) :
    let run := TaskWorld.run M codec reportCodec
    let w := run (.init installation) events
    (∀ id row, w.journal.get? id = some row → row.terminal = true → ∀ later,
      (∃ row', (run w later).journal.get? id = some row' ∧ row'.status = row.status ∧
        row'.result = row.result ∧ row'.progressSeq = row.progressSeq) ∧
      (run w later).started.count id = w.started.count id) ∧
    (w.assigned.Pairwise (fun a b => a.1 = b.1 → b.2 < a.2) ∧
      ∀ r ∈ w.reports, (r.taskId, r.sequence) ∈ w.assigned) ∧
    (∀ id t, w.panel.tasks.get? id = some t → t.machineId = M → plain t.kind = true →
      finished t.state → (∃ row rep, w.journal.get? id = some row ∧ row.terminal = true ∧
        reportOf reportCodec row = some rep ∧ Carries codec t rep) ∧
        ∀ later, (run w later).panel.tasks.get? id = some t) ∧
    (∀ now header report t entry answer db, w.panel.tasks.get? report.taskId = some t →
      report.sequence ≤ t.progressSequence →
      Panel.submitReport codec header report now w.panel = .ok (entry, answer, db) →
        db = w.panel) ∧
    (∀ id row, w.journal.get? id = some row → row.acknowledged = true →
      Committed M w.panel id row.progressSeq) := by
  intro run w
  have hw : Agree M codec reportCodec w :=
    (agree_run (agree_init M codec reportCodec installation) events).agree
  refine ⟨?_, ⟨hw.increasing, fun r hr => (hw.sent r hr).2⟩, ?_, ?_, hw.acknowledged⟩
  · intro id row hrow hterminal later
    have hprogress := agree_run hw later
    obtain ⟨row', hrow', -, -, hfinal⟩ := hprogress.onward id row hrow
    obtain ⟨hs, hr, hp⟩ := hfinal hterminal
    exact ⟨⟨row', hrow', hs, hr, hp⟩, hprogress.started id row hrow hterminal⟩
  · intro id t ht hM hplain hdone
    refine ⟨hw.done id t ht hM hplain hdone, fun later => ?_⟩
    obtain ⟨t', ht', hlater⟩ := (agree_run hw later).evolves.get? ht
    obtain rfl := hlater.final (not_pending_of_finished hdone)
    exact ht'
  · intro now header report t entry answer db ht hle hsubmit
    simp only [Panel.submitReport, bind_eq_ok, pure_eq_ok, Prod.exists, Prod.mk.injEq] at hsubmit
    obtain ⟨id, row, -, identity, -, answer', db', h, -, -, rfl⟩ := hsubmit
    obtain ⟨task, htask, ⟨-, rfl, -, -⟩ | ⟨hlt, -, -⟩⟩ := Panel.reportTask_eq_ok h
    · rfl
    · obtain rfl := Option.some.inj (htask.1.symm.trans ht)
      omega

end Bifurcation.Delivery
