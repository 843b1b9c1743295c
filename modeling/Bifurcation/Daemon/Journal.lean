import Bifurcation.Lib.Outcome
import Bifurcation.Lib.Table
import Bifurcation.Lib.Sha256
import Bifurcation.Protocol

/-!
# The daemon's task journal

`internal/state/tasks.go`, and what `internal/panelclient/executor.go` puts into it. A task is
recorded before any side effect; every transition raises its sequence by one; a terminal row is
never written again but for its acknowledgement.
-/

namespace Bifurcation.Daemon

/-! ## Rows -/

inductive JournalStatus where
  | accepted
  | running
  | succeeded
  | failed
deriving DecidableEq

structure JournalRow where
  payloadHash : String
  kind : TaskKind
  payload : Bytes
  bindingEpoch : Int
  status : JournalStatus := .accepted
  progressSeq : Int := 0
  result : Option Bytes := none
  acknowledged : Bool := false
deriving DecidableEq

abbrev Journal := Table String JournalRow

inductive JournalError where
  | conflict
  /-- A row that must exist is missing. -/
  | notFound
  /-- A validator refused the row. -/
  | constraint
  | invalidTransition
deriving DecidableEq

def JournalRow.terminal (row : JournalRow) : Bool :=
  row.status = .succeeded || row.status = .failed

/-! ## Transactions -/

/-- `Accept` records a panel-accepted task before any side effect. Duplicates retain local
progress. -/
def acceptTask (id payloadHash : String) (kind : TaskKind) (payload : Bytes) (bindingEpoch : Int)
    (j : Journal) : Except JournalError (JournalRow × Journal) :=
  match j.get? id with
  | some old => do
    failIf (old.payloadHash ≠ payloadHash ∨ old.bindingEpoch ≠ bindingEpoch ∨ old.kind ≠ kind)
      .conflict
    return (old, j)
  | none => do
    failIf (id = "" ∨ payloadHash = "" ∨ bindingEpoch ≤ 0) .constraint
    let row : JournalRow := { payloadHash, kind, payload, bindingEpoch }
    return (row, j.set id row)

/-- The row a transition leaves. -/
def JournalRow.advance (row : JournalRow) (status : JournalStatus) (result : Option Bytes) :
    JournalRow :=
  { row with status, progressSeq := row.progressSeq + 1, result }

/-- `Transition` is monotonic: terminal tasks cannot be executed or overwritten again. -/
def transition (id : String) (status : JournalStatus) (result : Option Bytes) (j : Journal) :
    Except JournalError (JournalRow × Journal) := do
  let row ← found .notFound (j.get? id)
  if row.terminal then return (row, j)
  else do
    failIf (status = .accepted) .invalidTransition
    let updated := row.advance status result
    return (updated, j.set id updated)

/-- The terminal tasks that were not acknowledged. -/
def pendingResults (j : Journal) : List (String × JournalRow) :=
  j.rows.filter fun x => !x.2.acknowledged && x.2.terminal

def acknowledgeTask (id : String) (seq : Int) (j : Journal) : Except JournalError Journal := do
  let row ← found .conflict ((j.get? id).filter fun row => row.progressSeq = seq && row.terminal)
  return j.set id { row with acknowledged := true }

/-! ## Reports -/

/-- The protobuf encoding of a report. It fails on a text that is not valid UTF-8. -/
structure ReportCodec where
  marshal : ReportTaskRequest → Option Bytes
  unmarshal : Bytes → Option ReportTaskRequest
  unmarshal_marshal : ∀ report bytes, marshal report = some bytes → unmarshal bytes = some report

/-- How an operation ended, as `execute` reports it: an empty error code is success. -/
structure Outcome where
  errorCode : String
  message : String
  rollback : RollbackState
  actualStatus : Option MachineStatus
  diagnosticJson : Bytes

/-- The progress report that is sent when an operation starts. -/
def runningReport (id : String) (installation : Installation) (row : JournalRow) :
    ReportTaskRequest where
  installation := some installation
  taskId := id
  payloadSha256 := row.payloadHash
  sequence := row.progressSeq
  state := .running
  phase := "running"
  progressPercent := none
  errorCode := ""
  message := ""
  rollback := .notNeeded
  actualStatus := none
  diagnosticJson := []

/-- The terminal report, numbered after the row it was loaded with. -/
def finalReport (id : String) (installation : Installation) (row : JournalRow)
    (outcome : Outcome) : ReportTaskRequest where
  installation := some installation
  taskId := id
  payloadSha256 := row.payloadHash
  sequence := row.progressSeq + 1
  state := if outcome.errorCode = "" then .succeeded else .failed
  phase := if outcome.errorCode = "" then "completed" else "failed"
  progressPercent := none
  errorCode := outcome.errorCode
  message := outcome.message
  rollback := outcome.rollback
  actualStatus := outcome.actualStatus
  diagnosticJson := outcome.diagnosticJson

/-- The journal status of a terminal report. -/
def statusOf (report : ReportTaskRequest) : JournalStatus :=
  if report.state = .failed then .failed else .succeeded

/-- The report `reportResult` sends for a terminal row: the stored one, under the installation
the daemon has now. -/
def resultReport (codec : ReportCodec) (installation : Installation) (row : JournalRow) :
    Option ReportTaskRequest := do
  let report ← codec.unmarshal (row.result.getD [])
  return { report with installation := some installation }

/-! ## What the transactions do -/

variable {id : String} {row : JournalRow} {j j' : Journal}

theorem acceptTask_eq_ok {payloadHash : String} {kind : TaskKind} {payload : Bytes}
    {bindingEpoch : Int}
    (h : acceptTask id payloadHash kind payload bindingEpoch j = .ok (row, j')) :
    (j.get? id = some row ∧ j' = j) ∨
      (j.get? id = none ∧ row = { payloadHash, kind, payload, bindingEpoch } ∧
        j' = j.set id row) := by
  unfold acceptTask at h
  cases hget : j.get? id with
  | some old =>
    simp only [hget, bind_eq_ok, failIf_eq_ok, pure_eq_ok, exists_const, Prod.mk.injEq] at h
    obtain ⟨-, rfl, rfl⟩ := h
    exact .inl ⟨rfl, rfl⟩
  | none =>
    simp only [hget, bind_eq_ok, failIf_eq_ok, pure_eq_ok, exists_const, Prod.mk.injEq] at h
    obtain ⟨-, rfl, rfl⟩ := h
    exact .inr ⟨rfl, rfl, rfl⟩

theorem transition_eq_ok {status : JournalStatus} {result : Option Bytes}
    (h : transition id status result j = .ok (row, j')) :
    ∃ old, j.get? id = some old ∧
      ((old.terminal = true ∧ row = old ∧ j' = j) ∨
        (old.terminal = false ∧ status ≠ .accepted ∧ row = old.advance status result ∧
          j' = j.set id row)) := by
  simp only [transition, bind_eq_ok, found_eq_ok] at h
  obtain ⟨old, hget, h⟩ := h
  refine ⟨old, hget, ?_⟩
  by_cases hterminal : old.terminal
  · simp only [hterminal, if_true, pure_eq_ok, Prod.mk.injEq] at h
    exact .inl ⟨hterminal, h.1.symm, h.2.symm⟩
  · simp only [hterminal, Bool.false_eq_true, if_false, bind_eq_ok, failIf_eq_ok, pure_eq_ok,
      exists_const, Prod.mk.injEq] at h
    obtain ⟨hstatus, rfl, rfl⟩ := h
    exact .inr ⟨by simpa using hterminal, hstatus, rfl, rfl⟩

theorem acknowledgeTask_eq_ok {seq : Int} (h : acknowledgeTask id seq j = .ok j') :
    ∃ row, j.get? id = some row ∧ row.progressSeq = seq ∧ row.terminal = true ∧
      j' = j.set id { row with acknowledged := true } := by
  simp only [acknowledgeTask, bind_eq_ok, found_eq_ok, Option.filter_eq_some_iff, Bool.and_eq_true,
    decide_eq_true_eq, pure_eq_ok] at h
  obtain ⟨row, ⟨hget, hseq, hterminal⟩, rfl⟩ := h
  exact ⟨row, hget, hseq, hterminal, rfl⟩

end Bifurcation.Daemon
