import Bifurcation.Lib.Outcome
import Bifurcation.Protocol

/-!
# The stored state of the managed core

`internal/state/core.go`. The table holds at most one row, under the id `core`; the four writes
are transactions on it.
-/

namespace Bifurcation.Daemon

inductive Stage where
  | idle
  | prepared
deriving DecidableEq

structure CoreState where
  policyFloor : Int := 0
  authorization : Bytes := []
  appliedRevision : String := ""
  appliedPolicy : Int := 0
  appliedConfig : Bytes := []
  stage : Stage := .idle
  pendingTask : String := ""
  pendingRevision : String := ""
  pendingPolicy : Int := 0
  pendingConfig : Bytes := []
deriving DecidableEq

/-- The `core` row, if it was ever created. -/
abbrev CoreRow := Option CoreState

inductive CoreError where
  | conflict
  /-- The row does not exist. -/
  | notFound
  /-- A column's validator refused a negative number. -/
  | constraint
deriving DecidableEq

/-- `Core`. -/
def readCore (row : CoreRow) : CoreState := row.getD {}

/-- The row with another policy. -/
def CoreState.persist (saved : CoreState) (revision : Int) (authorization : Bytes) : CoreState :=
  { saved with policyFloor := revision, authorization }

def persistPolicy (revision : Int) (authorization : Bytes) (row : CoreRow) :
    Except CoreError CoreRow := do
  let saved := readCore row
  failIf (revision < saved.policyFloor ∨ revision = saved.policyFloor ∧
    saved.authorization.length > 0 ∧ saved.authorization ≠ authorization) .conflict
  failIf (revision < 0) .constraint
  return some (saved.persist revision authorization)

/-- The row with a pending task. -/
def CoreState.prepare (saved : CoreState) (task revision : String) (policy : Int)
    (config : Bytes) : CoreState :=
  { saved with
    stage := .prepared, pendingTask := task, pendingRevision := revision, pendingPolicy := policy
    pendingConfig := config }

def prepareCore (task revision : String) (policy : Int) (config : Bytes) (row : CoreRow) :
    Except CoreError CoreRow := do
  let saved ← found .notFound row
  failIf (policy < saved.policyFloor) .conflict
  failIf (saved.stage ≠ .idle ∧ saved.pendingTask ≠ task) .conflict
  failIf (policy < 0) .constraint
  return some (saved.prepare task revision policy config)

/-- The pending columns of an idle row. -/
def CoreState.settle (saved : CoreState) : CoreState :=
  { saved with
    stage := .idle, pendingTask := "", pendingRevision := "", pendingPolicy := 0
    pendingConfig := [] }

/-- The row with another applied configuration. -/
def CoreState.commit (saved : CoreState) (revision : String) (policy : Int) (config : Bytes) :
    CoreState :=
  { saved with
    appliedRevision := revision, appliedPolicy := policy, appliedConfig := config }.settle

def commitCore (revision : String) (policy : Int) (config : Bytes) (row : CoreRow) :
    Except CoreError CoreRow := do
  failIf (policy < 0) .constraint
  let saved ← found .notFound row
  return some (saved.commit revision policy config)

def abortCore (row : CoreRow) : Except CoreError CoreRow := do
  let saved ← found .notFound row
  return some saved.settle

/-! ## What each write does -/

theorem persistPolicy_eq_ok {revision : Int} {authorization : Bytes} {row row' : CoreRow}
    (h : persistPolicy revision authorization row = .ok row') :
    (readCore row).policyFloor ≤ revision ∧
      (revision = (readCore row).policyFloor → (readCore row).authorization = [] ∨
        (readCore row).authorization = authorization) ∧
      row' = some ((readCore row).persist revision authorization) := by
  simp only [persistPolicy, bind_eq_ok, failIf_eq_ok, pure_eq_ok, not_or, not_and, not_not,
    exists_const] at h
  obtain ⟨⟨hle, hsame⟩, -, rfl⟩ := h
  refine ⟨not_lt.1 hle, fun heq => ?_, rfl⟩
  rcases Nat.eq_zero_or_pos (readCore row).authorization.length with h0 | hpos
  · exact .inl (List.length_eq_zero_iff.1 h0)
  · exact .inr (hsame heq hpos)

theorem prepareCore_eq_ok {task revision : String} {policy : Int} {config : Bytes}
    {row row' : CoreRow} (h : prepareCore task revision policy config row = .ok row') :
    ∃ saved, row = some saved ∧ saved.policyFloor ≤ policy ∧
      (saved.stage = .idle ∨ saved.pendingTask = task) ∧
      row' = some (saved.prepare task revision policy config) := by
  simp only [prepareCore, bind_eq_ok, found_eq_ok, failIf_eq_ok, pure_eq_ok, exists_const] at h
  obtain ⟨saved, hrow, hle, hstage, -, rfl⟩ := h
  refine ⟨saved, hrow, not_lt.1 hle, ?_, rfl⟩
  by_cases hs : saved.stage = .idle
  · exact .inl hs
  · exact .inr (not_not.1 fun ht => hstage ⟨hs, ht⟩)

theorem commitCore_eq_ok {revision : String} {policy : Int} {config : Bytes}
    {row row' : CoreRow} (h : commitCore revision policy config row = .ok row') :
    ∃ saved, row = some saved ∧ row' = some (saved.commit revision policy config) := by
  simp only [commitCore, bind_eq_ok, found_eq_ok, failIf_eq_ok, pure_eq_ok, exists_const] at h
  obtain ⟨-, saved, hrow, rfl⟩ := h
  exact ⟨saved, hrow, rfl⟩

theorem abortCore_eq_ok {row row' : CoreRow} (h : abortCore row = .ok row') :
    ∃ saved, row = some saved ∧ row' = some saved.settle := by
  simp only [abortCore, bind_eq_ok, found_eq_ok, pure_eq_ok] at h
  obtain ⟨saved, hrow, rfl⟩ := h
  exact ⟨saved, hrow, rfl⟩

/-! ## When each write succeeds -/

theorem persistPolicy_of_lt {revision : Int} {authorization : Bytes} {row : CoreRow}
    (hlt : (readCore row).policyFloor < revision) (hle : 0 ≤ revision) :
    persistPolicy revision authorization row =
      .ok (some ((readCore row).persist revision authorization)) := by
  simp only [persistPolicy, bind_eq_ok, failIf_eq_ok, pure_eq_ok, exists_const, and_true]
  refine ⟨?_, not_lt.2 hle⟩
  rintro (h | ⟨h, -⟩) <;> omega

theorem prepareCore_of_idle {task revision : String} {policy : Int} {config : Bytes}
    {saved : CoreState} (hidle : saved.stage = .idle) (hfloor : saved.policyFloor ≤ policy)
    (hle : 0 ≤ policy) : prepareCore task revision policy config (some saved) =
      .ok (some (saved.prepare task revision policy config)) := by
  simp only [prepareCore, bind_eq_ok, found_eq_ok, failIf_eq_ok, pure_eq_ok, exists_const]
  exact ⟨saved, rfl, not_lt.2 hfloor, fun h => h.1 hidle, not_lt.2 hle, rfl⟩

theorem commitCore_some {revision : String} {policy : Int} {config : Bytes} (hle : 0 ≤ policy)
    (saved : CoreState) :
    commitCore revision policy config (some saved) =
      .ok (some (saved.commit revision policy config)) := by
  simp only [commitCore, bind_eq_ok, found_eq_ok, failIf_eq_ok, pure_eq_ok, exists_const]
  exact ⟨not_lt.2 hle, saved, rfl, rfl⟩

end Bifurcation.Daemon
