import Bifurcation.Daemon.Revocation

/-!
# When the stage is released

`PrepareCore` marks the core row as prepared for one task, and refuses another task until the row
is idle again. While the store works, `Apply` returns with an idle row except on one path: the
candidate does not start, and the rollback that follows fails to merge or to start the previous
configuration. It then reports the failed rollback and leaves the task pending.
-/

namespace Bifurcation.Daemon

open Prog

variable {S : Type} (sink : Option (S → List Counter → Except StoreError S)) {A : Answer → Prop}

/-- No task is pending. -/
def Machine.Idle (m : Machine S) : Prop := (readCore m.core).stage = .idle

/-- A task at the current policy is not refused because of another task. -/
def Accepts (row : CoreRow) : Prop :=
  ∀ task revision config,
    prepareCore task revision (readCore row).policyFloor config row ≠ .error .conflict

theorem prepareCore_ne_conflict {task revision : String} {config : Bytes} {row : CoreRow}
    (h : (readCore row).stage = .idle) :
    prepareCore task revision (readCore row).policyFloor config row ≠ .error .conflict := by
  intro hconflict
  simp only [prepareCore, bind_eq_error, found_eq_error, found_eq_ok, failIf_eq_error,
    pure_ne_error, reduceCtorEq, and_false, false_or, or_false, exists_false] at hconflict
  obtain ⟨saved, rfl, hcases⟩ := hconflict
  have hidle : saved.stage = .idle := h
  simp [readCore, hidle] at hcases

/-! ## What keeps the row idle -/

theorem idle_framed : Framed (Machine.Idle (S := S)) := fun _ _ _ h => h

theorem triple_writeCore_idle {write : CoreRow → Except CoreError CoreRow}
    (hwrite : ∀ row row', (readCore row).stage = .idle → write row = .ok row' →
      (readCore row').stage = .idle) :
    Triple A (Machine.Idle (S := S)) (writeCore write) (fun _ => Machine.Idle) fun _ => True :=
  triple_writeCore (fun _ _ => trivial) (fun m row h hw => hwrite m.core row h hw)
    (fun _ _ h _ => h) fun _ _ _ _ h => h

theorem triple_commit_idle (revision : String) (policy : Int) (config : Bytes) :
    Triple A (Machine.Idle (S := S)) (writeCore (commitCore revision policy config))
      (fun _ => Machine.Idle) fun _ => True := by
  refine triple_writeCore_idle fun row row' _ hw => ?_
  obtain ⟨saved, -, rfl⟩ := commitCore_eq_ok hw
  rfl

theorem triple_abort_idle :
    Triple A (Machine.Idle (S := S)) (writeCore abortCore) (fun _ => Machine.Idle)
      fun _ => True := by
  refine triple_writeCore_idle fun row row' _ hw => ?_
  obtain ⟨saved, -, rfl⟩ := abortCore_eq_ok hw
  rfl

section Frames

variable {P : Machine S → Prop} (hP : Framed P)
  (hactive : ∀ m active, P m → P { m with active })
  (hstarted : ∀ m started, P m → P { m with started })

include hP hactive hstarted

/-- A condition on the core row alone is kept by `restore`. -/
theorem restore_frame (safe authorization : Bytes) :
    Triple A P (restore sink safe authorization) (fun _ => P) fun _ => True := by
  have hcut : ∀ m : Machine S, P m → True := fun _ _ => trivial
  refine triple_bind (R := fun _ => P) (triple_build hcut (fun _ h => h) fun _ _ _ _ _ h => h)
    fun restored => ?_
  have hactivate (current : Option Instance) (fault : Option Fault) :
      Triple A P (activate current >>= fun _ => pure fault) (fun _ => P) fun _ => True :=
    triple_bind (triple_modify fun m h => hactive m current h) fun _ => triple_pure fun _ h => h
  cases restored with
  | none => exact hactivate none _
  | some restored =>
    refine triple_bind (R := fun _ => P)
      ((start_frame sink hP hcut restored fun m tracker h => hstarted m _ h).mono
        (fun _ h => h) (fun _ _ h => h.1) fun _ h => h) fun started => ?_
    obtain ⟨current, fault⟩ := started
    cases fault with
    | some fault =>
      exact triple_bind (closeInstance_frame sink hP hcut _) fun _ => hactivate none _
    | none => exact hactivate (some current) _

/-- And by `replaceWith`, which leaves no instance when it fails. -/
theorem replaceWith_frame (candidate : Instance) :
    Triple A P (replaceWith sink candidate)
      (fun fault m => P m ∧ (fault.isSome → m.active = none)) fun _ => True := by
  have hP' : Framed fun m => P m ∧ m.active = none := fun m usage pending h =>
    ⟨hP m usage pending h.1, h.2⟩
  have hcut : ∀ m : Machine S, P m ∧ m.active = none → True := fun _ _ => trivial
  refine triple_bind (R := fun _ m => P m ∧ m.active = none)
    (triple_detach fun m h => ⟨hactive m none h, rfl⟩) fun old => ?_
  refine triple_bind (closeInstance_frame sink hP' hcut old) fun _ => ?_
  refine triple_bind (start_frame sink hP' hcut candidate fun m tracker h =>
    ⟨hstarted m _ h.1, h.2⟩) fun started => ?_
  obtain ⟨current, fault⟩ := started
  cases fault with
  | some fault =>
    refine triple_bind (R := fun _ m => P m ∧ m.active = none)
      ((closeInstance_frame sink hP' hcut _).mono (fun _ h => h.1) (fun _ _ h => h) fun _ h => h)
      fun _ => triple_pure fun _ h => ⟨h.1, fun _ => h.2⟩
  | none =>
    refine triple_bind (R := fun _ => P) (triple_modify fun m h => hactive m _ h.1.1)
      fun _ => triple_pure fun _ h => ⟨h, fun heq => by cases heq⟩

end Frames

/-- A rollback of an idle row leaves it idle. -/
theorem triple_rollback_idle (previous : CoreState) (cause : Fault) :
    Triple A (Machine.Idle (S := S)) (rollback sink previous cause) (fun _ => Machine.Idle)
      fun _ => True := by
  have hcut : ∀ m : Machine S, m.Idle → True := fun _ _ => trivial
  refine triple_bind (R := fun _ => Machine.Idle) (triple_detach fun _ h => h) fun old => ?_
  refine triple_bind (closeInstance_frame sink idle_framed hcut old) fun _ => ?_
  refine triple_ite (fun _ => ?_) fun _ => ?_
  · refine triple_bind (R := fun _ => Machine.Idle) (triple_modify fun _ h => h) fun _ => ?_
    exact triple_bind triple_abort_idle fun _ => triple_pure fun _ h => h
  · refine triple_bind (R := fun _ => Machine.Idle)
      (triple_coreState hcut (fun _ h => h) fun _ _ _ _ h => h) fun latest => ?_
    cases latest with
    | error fault => exact triple_pure fun _ h => h
    | ok latest =>
      cases hmerge : mergeAuthorization previous.appliedConfig latest.authorization with
      | none => simp only [hmerge]; exact triple_pure fun _ h => h
      | some safe =>
        simp only [hmerge]
        refine triple_bind (restore_frame sink idle_framed (fun _ _ h => h) (fun _ _ h => h) _ _)
          fun fault => ?_
        cases fault with
        | some fault => exact triple_pure fun _ h => h
        | none =>
          refine triple_bind (triple_commit_idle _ _ _) fun fault => ?_
          cases fault <;> exact triple_pure fun _ h => h

theorem triple_fail_idle (previous : CoreState) (revision : Int) (cause : Fault) :
    Triple A (Machine.Idle (S := S)) (fail sink previous revision cause) (fun _ => Machine.Idle)
      fun _ => True :=
  triple_ite (fun _ => triple_rollback_idle sink previous cause) fun _ => triple_pure fun _ h => h

/-! ## One call of `Apply` -/

/-- A configuration cannot be merged with an authorization, built or started. -/
def RestoreFails (config authorization : Bytes) (m : Machine S) (answers : List Answer) : Prop :=
  ∀ safe, mergeAuthorization config authorization = some safe →
    ∃ m' fault rest, restore sink safe authorization m answers = (m', some (some fault, rest))

/-- The checks pass and the task is prepared, the candidate does not start although a
configuration was applied before, and that one cannot be merged with the stored policy, built or
started. -/
def Strands (config : Configuration) (m : Machine S) (answers : List Answer) : Prop :=
  ∃ a box answer rest built row, admitted config m answers = some a ∧
    checkConfiguration config a.revision a.authorization = none ∧
    unchanged m.active (readCore m.core) config = false ∧
    builtFrom config.json a.authorization = some built ∧
    a.answers = box :: answer :: rest ∧ box.ok = true ∧ answer.stored = true ∧
    prepareCore config.taskID config.revisionID config.policyRevision config.json a.row = .ok row ∧
    (readCore m.core).appliedConfig ≠ [] ∧
    ∃ m₁ fault read rest₁, read.stored = true ∧
      replaceWith sink (candidateOf config a.authorization box built) ((m.write a.row).write row)
        rest = (m₁, some (some fault, read :: rest₁)) ∧
      RestoreFails sink (readCore m.core).appliedConfig a.authorization m₁ rest₁

/-- A call that does not store its policy leaves the machine. -/
theorem apply_of_not_admitted {config : Configuration} {m : Machine S} {answers : List Answer}
    (h : admitted config m answers = none) : (apply sink config m answers).1 = m := by
  unfold apply
  rcases answers with _ | ⟨read, answers⟩
  · rfl
  by_cases hread : read.stored
  · cases hparse : parseAuthorization config.authorization with
    | none => simp [coreState, hread]
    | some parsed =>
      obtain ⟨auth, revision, canonical⟩ := parsed
      by_cases hrevision : revision = config.latestPolicyRevision
      · rcases answers with _ | ⟨write, answers⟩
        · simp [coreState, hread, hrevision, writeCore]
        · by_cases hwrite : write.stored
          · cases hpersist : persistPolicy revision canonical m.core with
            | error e =>
              rw [hrevision] at hpersist
              simp [coreState, hread, hrevision, writeCore, hwrite, hpersist]
            | ok row =>
              rw [hrevision] at hpersist
              simp [admitted, hread, hwrite, hparse, hrevision, hpersist] at h
          · simp [coreState, hread, hrevision, writeCore, hwrite]
      · simp [coreState, hread, hrevision]
  · simp [coreState, hread]

/-- What `Apply` does with a policy that it has stored, once the task is prepared. -/
theorem applyPersisted_of_prepared {config : Configuration} {previous : CoreState} {revision : Int}
    {auth : Bytes} {m : Machine S} (hcheck : checkConfiguration config revision auth = none)
    (hchanged : unchanged m.active previous config = false) {built : List String × Int}
    (hbuilt : builtFrom config.json auth = some built) {box answer : Answer}
    (hbox : box.ok = true) (hstored : answer.stored = true) {row : CoreRow}
    (hprepare : prepareCore config.taskID config.revisionID config.policyRevision config.json
      m.core = .ok row) (rest : List Answer) :
    applyPersisted sink config previous revision auth m (box :: answer :: rest) =
      applyPrepared sink config previous (candidateOf config auth box built) (m.write row) rest := by
  obtain ⟨users, built⟩ := built
  simp [applyPersisted, applyBuilt, build, writeCore, hcheck, hchanged, hbuilt, hbox, hstored,
    hprepare, candidateOf]

theorem detach_of_none {m : Machine S} (h : m.active = none) (answers : List Answer) :
    detach m answers = (m, some (none, answers)) := by
  obtain ⟨core, usage, active, pending, stored, started⟩ := m
  obtain rfl : active = none := h
  rfl

theorem commit_stored {saved : CoreState} {m : Machine S} (hcore : m.core = some saved)
    {answer : Answer} (hstored : answer.stored = true) (revision : String) {policy : Int}
    (hle : 0 ≤ policy) (config : Bytes) (rest : List Answer) :
    writeCore (commitCore revision policy config) m (answer :: rest) =
      (m.write (some (saved.commit revision policy config)), some (none, rest)) := by
  simp [writeCore, hstored, hcore, commitCore_some hle saved]

theorem abort_stored {saved : CoreState} {m : Machine S} (hcore : m.core = some saved)
    {answer : Answer} (hstored : answer.stored = true) (rest : List Answer) :
    writeCore abortCore m (answer :: rest) =
      (m.write (some saved.settle), some (none, rest)) := by
  have habort : abortCore (some saved) = .ok (some saved.settle) := by
    simp only [abortCore, bind_eq_ok, found_eq_ok, pure_eq_ok]
    exact ⟨saved, rfl, rfl⟩
  simp [writeCore, hstored, hcore, habort]

theorem coreState_stored {saved : CoreState} {m : Machine S} (hcore : m.core = some saved)
    {answer : Answer} (hstored : answer.stored = true) (rest : List Answer) :
    coreState m (answer :: rest) = (m, some (.ok saved, rest)) := by
  simp [coreState, hstored, readCore, hcore]

/-- Over a store that works, a rollback after a failed switch leaves an idle row unless the
previous configuration cannot be restored. -/
theorem rollback_idle {previous saved : CoreState} {cause : Fault} {m m' : Machine S}
    (hcore : m.core = some saved) (hactive : m.active = none) (hfloor : 0 ≤ saved.policyFloor)
    {answers rest : List Answer} {result : ApplyResult}
    (hstored : ∀ o ∈ answers, o.stored = true)
    (hrun : rollback sink previous cause m answers = (m', some (result, rest))) :
    m'.Idle ∨ previous.appliedConfig ≠ [] ∧ ∃ read rest₁, answers = read :: rest₁ ∧
      RestoreFails sink previous.appliedConfig saved.authorization m rest₁ := by
  simp only [rollback, bind_apply, detach_of_none hactive, closeInstance, pure_apply] at hrun
  rcases answers with _ | ⟨answer, answers⟩
  · split_ifs at hrun <;> simp [writeCore, coreState, activate] at hrun
  have hanswer := hstored answer List.mem_cons_self
  by_cases hnil : previous.appliedConfig.length = 0
  · -- nothing was applied before: the task is aborted
    have hcore' : Machine.core { m with active := none } = some saved := hcore
    simp only [hnil, if_true, activate, bind_apply, modify_apply, abort_stored hcore' hanswer,
      pure_apply, Prod.mk.injEq, Option.some.injEq] at hrun
    exact .inl (hrun.1 ▸ rfl)
  · have hne : previous.appliedConfig ≠ [] := fun heq => hnil (by rw [heq]; rfl)
    rw [if_neg hnil, bind_apply, coreState_stored hcore hanswer] at hrun
    simp only at hrun
    cases hmerge : mergeAuthorization previous.appliedConfig saved.authorization with
    | none =>
      refine .inr ⟨hne, answer, answers, rfl, fun safe h => ?_⟩
      rw [hmerge] at h
      cases h
    | some safe =>
      rw [hmerge] at hrun
      simp only [bind_apply] at hrun
      have hframe := restore_frame sink (A := fun o => o.stored = true)
        (P := fun m : Machine S => m.core = some saved) (fun _ _ _ h => h) (fun _ _ h => h)
        (fun _ _ h => h) safe saved.authorization m answers
        (fun o ho => hstored o (List.mem_cons_of_mem _ ho)) hcore
      cases hrestore : restore sink safe saved.authorization m answers with
      | mk m₂ out =>
        rw [hrestore] at hrun hframe
        rcases out with _ | ⟨_ | fault, rest₂⟩
        · simp at hrun
        · -- the restored configuration is committed
          obtain ⟨hcore₂, hstored₂⟩ := hframe
          rcases rest₂ with _ | ⟨commit, rest₂⟩
          · simp [writeCore] at hrun
          simp only [bind_apply] at hrun
          rw [commit_stored hcore₂ (hstored₂ commit List.mem_cons_self) _ hfloor] at hrun
          simp only [pure_apply, Prod.mk.injEq, Option.some.injEq] at hrun
          exact .inl (hrun.1 ▸ rfl)
        · refine .inr ⟨hne, answer, answers, rfl, fun safe' h => ?_⟩
          rw [hmerge] at h
          cases h
          exact ⟨m₂, fault, rest₂, hrestore⟩

/-- From a prepared row, over a store that works. -/
theorem applyPrepared_idle {config : Configuration} {previous saved : CoreState}
    {candidate : Instance} {m m' : Machine S} (hcore : m.core = some saved)
    (hfloor : 0 ≤ saved.policyFloor) (hpolicy : 0 ≤ config.policyRevision)
    {answers rest : List Answer} {result : ApplyResult}
    (hstored : ∀ o ∈ answers, o.stored = true)
    (hrun : applyPrepared sink config previous candidate m answers =
      (m', some (result, rest))) :
    m'.Idle ∨ previous.appliedConfig ≠ [] ∧ ∃ m₁ fault read rest₁, read.stored = true ∧
      replaceWith sink candidate m answers = (m₁, some (some fault, read :: rest₁)) ∧
      RestoreFails sink previous.appliedConfig saved.authorization m₁ rest₁ := by
  have hframe := replaceWith_frame sink (A := fun o => o.stored = true)
    (P := fun m : Machine S => m.core = some saved) (fun _ _ _ h => h) (fun _ _ h => h)
    (fun _ _ h => h) candidate m answers hstored hcore
  simp only [applyPrepared, bind_apply] at hrun
  cases hreplace : replaceWith sink candidate m answers with
  | mk m₁ out =>
    rw [hreplace] at hrun hframe
    rcases out with _ | ⟨_ | fault, rest₁⟩
    · simp at hrun
    · obtain ⟨⟨hcore₁, -⟩, hstored₁⟩ := hframe
      rcases rest₁ with _ | ⟨commit, rest₁⟩
      · simp [writeCore] at hrun
      simp only [bind_apply] at hrun
      rw [commit_stored hcore₁ (hstored₁ commit List.mem_cons_self) _ hpolicy] at hrun
      rcases rest₁ with _ | ⟨read, rest₁⟩
      · simp [coreState] at hrun
      have hwritten : (m₁.write (some (saved.commit config.revisionID config.policyRevision
        config.json))).core = some _ := rfl
      simp only [bind_apply] at hrun
      rw [coreState_stored hwritten
        (hstored₁ read (List.mem_cons_of_mem _ List.mem_cons_self))] at hrun
      simp only [pure_apply, Prod.mk.injEq, Option.some.injEq] at hrun
      exact .inl (hrun.1 ▸ rfl)
    · obtain ⟨⟨hcore₁, hactive₁⟩, hstored₁⟩ := hframe
      rcases rollback_idle sink hcore₁ (hactive₁ rfl) hfloor hstored₁ hrun with hidle |
        ⟨hne, read, rest₂, rfl, hfails⟩
      · exact .inl hidle
      · exact .inr ⟨hne, m₁, fault, read, rest₂, hstored₁ read List.mem_cons_self, rfl, hfails⟩

/-- Over a store that works, a call from an idle row returns with an idle row, or strands. -/
theorem apply_idle {config : Configuration} {m m' : Machine S} {answers : List Answer}
    {result : ApplyResult} (hidle : m.Idle) (hstored : ∀ o ∈ answers, o.stored = true)
    (hrun : (apply sink config).run m answers = (m', some result)) :
    m'.Idle ∨ Strands sink config m answers := by
  cases hadmitted : admitted config m answers with
  | none =>
    have hsame := apply_of_not_admitted sink hadmitted
    rw [Prog.run, Prod.mk.injEq, hsame] at hrun
    exact .inl (hrun.1 ▸ hidle)
  | some a =>
    obtain ⟨⟨parsed, hparse⟩, hpersist, happly⟩ := admitted_eq_some sink hadmitted
    obtain ⟨-, hpositive, -⟩ := parseAuthorization_eq_some hparse
    obtain ⟨-, -, hrow⟩ := persistPolicy_eq_ok hpersist
    obtain ⟨read, write, hanswers⟩ := admitted_answers hadmitted
    have hstored' : ∀ o ∈ a.answers, o.stored = true := fun o ho =>
      hstored o (by rw [hanswers]; exact List.mem_cons_of_mem _ (List.mem_cons_of_mem _ ho))
    have hidle' : (m.write a.row).Idle := by rw [hrow]; exact hidle
    have hexit := applyPersisted_exit sink config (readCore m.core) a.revision a.authorization
      (m.write a.row) a.answers
    rw [Prog.run, happly] at hrun
    generalize applyPersisted sink config (readCore m.core) a.revision a.authorization
      (m.write a.row) a.answers = out at hexit hrun
    cases hexit with
    | failed cause rest hrest =>
      exact .inl ((triple_fail_idle sink (A := fun _ => True) (readCore m.core) a.revision
        cause).run_value (fun _ _ => trivial) hidle' hrun)
    | running hcheck hunchanged =>
      obtain ⟨rfl, -⟩ := Prod.mk.inj hrun
      exact .inl hidle'
    | killed => simp at hrun
    | refused hcheck hchanged hbuilt box prepare rest _ hbox hfails result' =>
      obtain ⟨rfl, -⟩ := Prod.mk.inj hrun
      exact .inl hidle'
    | prepared hcheck hchanged built hbuilt box prepare rest hrest hbox hprep row hprepare =>
      obtain ⟨saved, hcore, -, -, rfl⟩ := prepareCore_eq_ok hprepare
      have hcore' : a.row = some saved := hcore
      rw [hrow] at hcore'
      obtain rfl : (readCore m.core).persist a.revision a.authorization = saved :=
        Option.some.inj hcore'
      have hrevision := (checkConfiguration_eq_none hcheck).1
      cases hcall : applyPrepared sink config (readCore m.core)
          (candidateOf config a.authorization box built) _ rest with
      | mk t out =>
        rw [hcall] at hrun
        rcases out with _ | ⟨result', rest'⟩
        · simp at hrun
        simp only [Option.map_some, Prod.mk.injEq, Option.some.injEq] at hrun
        obtain ⟨rfl, rfl⟩ := hrun
        have hstored₁ : ∀ o ∈ rest, o.stored = true := fun o ho => hstored' o (by
          rw [hrest]; exact List.mem_cons_of_mem _ (List.mem_cons_of_mem _ ho))
        rcases applyPrepared_idle sink rfl (show (0 : Int) ≤ a.revision by omega)
          (by omega) hstored₁ hcall with hdone | ⟨hne, m₁, fault, read₁, rest₁, hread₁, hreplace,
            hfails⟩
        · exact .inl hdone
        · exact .inr ⟨a, box, prepare, rest, built, _, hadmitted, hcheck, hchanged, hbuilt, hrest,
            hbox, hprep, hprepare, hne, m₁, fault, read₁, rest₁, hread₁, hreplace, hfails⟩

/-- A call that strands returns, and another task is refused from then on. -/
theorem apply_of_strands {config : Configuration} {m : Machine S} {answers : List Answer}
    (h : Strands sink config m answers) :
    ∃ m' result, (apply sink config).run m answers = (m', some result) ∧ ¬ Accepts m'.core := by
  obtain ⟨a, box, prepare, rest, built, row, hadmitted, hcheck, hchanged, hbuilt, hrest, hbox, hprep,
    hprepare, hne, m₁, fault, read, rest₁, hread, hreplace, hfails⟩ := h
  obtain ⟨-, hpersist, happly⟩ := admitted_eq_some sink hadmitted
  obtain ⟨-, -, hrow⟩ := persistPolicy_eq_ok hpersist
  obtain ⟨saved, hsaved, -, -, rfl⟩ := prepareCore_eq_ok hprepare
  obtain rfl : (readCore m.core).persist a.revision a.authorization = saved :=
    Option.some.inj (hrow.symm.trans hsaved)
  generalize hnew : ((readCore m.core).persist a.revision a.authorization).prepare config.taskID
    config.revisionID config.policyRevision config.json = new at hprepare hreplace
  have hblocked (m' : Machine S) (hcore : m'.core = some new) : ¬ Accepts m'.core := by
    intro haccepts
    have hother : config.taskID ≠ config.taskID ++ "'" := by
      intro heq
      have := congrArg String.length heq
      simp [String.length_append] at this
    refine haccepts (config.taskID ++ "'") "" [] ?_
    have hstage : new.stage = .prepared := by rw [← hnew]; rfl
    have htask : new.pendingTask = config.taskID := by rw [← hnew]; rfl
    simp [hcore, prepareCore, readCore, found, failIf, hstage, htask, hother, bind, Except.bind]
  have hframe := replaceWith_frame sink (A := fun _ => True)
    (P := fun m : Machine S => m.core = some new) (fun _ _ _ h => h) (fun _ _ h => h)
    (fun _ _ h => h) (candidateOf config a.authorization box built)
    ((m.write a.row).write (some new)) rest (fun _ _ => trivial) rfl
  rw [hreplace] at hframe
  obtain ⟨⟨hcore₁, hactive₁⟩, -⟩ := hframe
  have hauth : new.authorization = a.authorization := by rw [← hnew]; rfl
  have hnil : ¬ (readCore m.core).appliedConfig.length = 0 := fun h0 =>
    hne (List.length_eq_zero_iff.1 h0)
  have hcall : apply sink config m answers =
      rollback sink (readCore m.core) fault m₁ (read :: rest₁) := by
    rw [happly, hrest, applyPersisted_of_prepared sink (m := m.write a.row) hcheck hchanged hbuilt
      hbox hprep hprepare]
    simp only [applyPrepared, bind_apply, hreplace]
  have hread' : coreState m₁ (read :: rest₁) = (m₁, some (.ok new, rest₁)) :=
    coreState_stored hcore₁ hread rest₁
  simp only [Prog.run, hcall, rollback, bind_apply, detach_of_none (hactive₁ rfl), closeInstance,
    pure_apply, if_neg hnil, hread']
  cases hmerge : mergeAuthorization (readCore m.core).appliedConfig new.authorization with
  | none => exact ⟨m₁, _, rfl, hblocked m₁ hcore₁⟩
  | some safe =>
    obtain ⟨m₂, fault', rest₂, hrestore⟩ := hfails safe (by rw [← hauth]; exact hmerge)
    have hframe₂ := restore_frame sink (A := fun _ => True)
      (P := fun m : Machine S => m.core = some new) (fun _ _ _ h => h) (fun _ _ h => h)
      (fun _ _ h => h) safe a.authorization m₁ rest₁ (fun _ _ => trivial) hcore₁
    rw [hrestore] at hframe₂
    simp only [bind_apply, hauth, hrestore]
    exact ⟨m₂, _, rfl, hblocked m₂ hframe₂.1⟩

/-! ## Runs -/

/-- A sequence of calls in one process, all of which return. -/
def applyAll : Machine S → List (Configuration × List Answer) → Option (Machine S)
  | m, [] => some m
  | m, (config, answers) :: calls =>
    match (apply sink config).run m answers with
    | (m', some _) => applyAll m' calls
    | (_, none) => none

theorem applyAll_cons {config : Configuration} {m m' : Machine S} {answers : List Answer}
    {result : ApplyResult} (h : (apply sink config).run m answers = (m', some result))
    (calls : List (Configuration × List Answer)) :
    applyAll sink m ((config, answers) :: calls) = applyAll sink m' calls := by
  simp only [applyAll, h]

/-- No call of the sequence strands. -/
def NeverStrands : Machine S → List (Configuration × List Answer) → Prop
  | _, [] => True
  | m, (config, answers) :: calls =>
    ¬ Strands sink config m answers ∧ NeverStrands ((apply sink config).run m answers).1 calls

/-- In one process that begins with an idle row, over a store that works, every call of a sequence
in which none strands returns with a row that accepts the next task. -/
theorem stage_released {m m' : Machine S} {calls : List (Configuration × List Answer)}
    (hidle : m.Idle) (hstored : ∀ call ∈ calls, ∀ o ∈ call.2, o.stored = true)
    (hnever : NeverStrands sink m calls) (hrun : applyAll sink m calls = some m') :
    Accepts m'.core := by
  have hlast : m'.Idle := by
    induction calls generalizing m with
    | nil =>
      cases hrun
      exact hidle
    | cons call calls ih =>
      obtain ⟨config, answers⟩ := call
      rw [applyAll] at hrun
      split at hrun
      · next t result hcall =>
        obtain ⟨hnot, hnever⟩ := hnever
        rw [hcall] at hnever
        refine ih ?_ (fun call hin => hstored call (List.mem_cons_of_mem _ hin)) hnever hrun
        exact (apply_idle sink hidle (hstored (config, answers) List.mem_cons_self) hcall).resolve_right
          hnot
      · cases hrun
  exact fun _ _ _ => prepareCore_ne_conflict hlast

/-- A library operation that fails, over a database that works. -/
def broken : Answer := { works with ok := false }

/-- The second task's answers once it is prepared: the old instance closes, the candidate does not
start, and the previous configuration is not built again. -/
def failingSwitch : List Answer :=
  List.replicate 6 works ++ broken :: works :: works :: works :: works :: [broken]

theorem restoreFails_broken (config authorization : Bytes) (m : Machine S) :
    RestoreFails sink config authorization m [broken] := by
  intro safe _
  cases hbuilt : builtFrom safe authorization with
  | none => exact ⟨_, .build, _, by simp [restore, build, hbuilt, activate]; exact ⟨rfl, rfl⟩⟩
  | some built =>
    exact ⟨_, .build, _, by simp [restore, build, hbuilt, activate, broken]; exact ⟨rfl, rfl⟩⟩

theorem userIDs_nil (runtimeID : String) (now : Int) :
    (newTracker [] runtimeID now).userIDs = [] := by
  simp [newTracker]

theorem userIDs_singleton {user : String} (h : user ≠ "") (runtimeID : String) (now : Int) :
    (newTracker [user] runtimeID now).userIDs = [user] := by
  simp [newTracker, h]

theorem replaceWith_failingSwitch {m : Machine Unit} {config config' : Configuration}
    {authorization : Bytes} {revision : Int}
    (hactive : m.active = some (runningInstance config ["u"])) (hpending : m.pendingFinal = []) :
    ∃ m₁, replaceWith accepting (candidateOf config' authorization works ([], revision)) m
      failingSwitch = (m₁, some (some .boxStart, [works, broken])) := by
  simp [replaceWith, failingSwitch, hactive, hpending, detach, closeInstance, start, retryFinal,
    retryFinalFrom, persistAny, persist, works, broken, accepting, runningInstance,
    Tracker.counters, userIDs_singleton, userIDs_nil, candidateOf]

theorem strands_of_failingSwitch {first second : Configuration} (h₁ : Acceptable first ["u"])
    (h₂ : Acceptable second []) (hle : 1 ≤ first.policyRevision)
    (hlt : first.policyRevision < second.policyRevision) (stored : List CoreState)
    (started : List Started) :
    Strands accepting second
      { core := some (appliedRow first), usage := (), pendingFinal := [], stored, started
        active := some (runningInstance first ["u"]) }
      (works :: works :: works :: works :: failingSwitch) := by
  obtain ⟨⟨auth, hparse⟩, hlatest, hcheck, hbuilt⟩ := h₂
  have hlists := (checkConfiguration_eq_none h₁.checked).2
  obtain ⟨hpersist, hprepare⟩ := @taken_of_idle second (some (appliedRow first)) (appliedRow first)
    rfl rfl (zero_le_one.trans hle) hlt
  generalize hm : Machine.mk _ _ _ _ _ _ = m
  have hcore : m.core = some (appliedRow first) := by rw [← hm]
  have hactive : m.active = some (runningInstance first ["u"]) := by rw [← hm]
  have hpending : m.pendingFinal = [] := by rw [← hm]
  have hadmitted : admitted second m (works :: works :: works :: works :: failingSwitch) =
      some ⟨second.policyRevision, second.authorization,
        some ((appliedRow first).persist second.policyRevision second.authorization),
        works :: works :: failingSwitch⟩ := by
    have hworks : works.stored = true := rfl
    simp [admitted, hworks, hparse, hlatest, hcore, hpersist]
  have hchanged : unchanged m.active (readCore m.core) second = false := by
    rw [hcore]
    simp only [unchanged, Bool.and_eq_false_iff]
    exact .inl (.inr (decide_eq_false hlt.ne))
  obtain ⟨m₁, hreplace⟩ : ∃ m₁, replaceWith accepting
      (candidateOf second second.authorization works ([], second.policyRevision))
      ((m.write (some ((appliedRow first).persist second.policyRevision
        second.authorization))).write (some (((appliedRow first).persist second.policyRevision
          second.authorization).prepare second.taskID second.revisionID second.policyRevision
            second.json))) failingSwitch = (m₁, some (some .boxStart, [works, broken])) :=
    replaceWith_failingSwitch hactive hpending
  exact ⟨_, works, works, _, _, _, hadmitted, hcheck, hchanged, hbuilt, rfl, rfl, rfl, hprepare,
    by rw [hcore]; exact hlists.ne_nil, m₁, .boxStart, works, [broken], rfl, hreplace,
    restoreFails_broken accepting _ _ m₁⟩

/-- Two tasks after which every other task is refused. -/
theorem blocked_of_failingSwitch {first second : Configuration} (h₁ : Acceptable first ["u"])
    (h₂ : Acceptable second []) (hle : 1 ≤ first.policyRevision)
    (hlt : first.policyRevision < second.policyRevision) :
    ∃ m', applyAll accepting (Machine.init ()) [(first, List.replicate 12 works),
      (second, works :: works :: works :: works :: failingSwitch)] = some m' ∧
      ¬ Accepts m'.core := by
  obtain ⟨stored, started, result, hfirst⟩ := apply_first h₁ hle
  obtain ⟨m', result', hsecond, hblocked⟩ := apply_of_strands accepting
    (strands_of_failingSwitch h₁ h₂ hle hlt stored started)
  exact ⟨m', by simp only [applyAll, hfirst, hsecond], hblocked⟩

/-- The claim that the row always accepts the next task fails: the second task does not start, its
rollback fails, and every other task is refused. -/
theorem failed_rollback_blocks : ¬ ∀ (calls : List (Configuration × List Answer))
    (m' : Machine Unit), (∀ call ∈ calls, ∀ o ∈ call.2, o.stored = true) →
      applyAll accepting (Machine.init ()) calls = some m' → Accepts m'.core := by
  intro hclaim
  obtain ⟨m', hrun, hblocked⟩ := blocked_of_failingSwitch firstTask_acceptable
    secondTask_acceptable (by decide) (by decide)
  refine hblocked (hclaim _ m' ?_ hrun)
  simp [failingSwitch, works, broken]

/-! ## A candidate that is rolled back -/

/-- The second task's answers where its candidate does not start, and the previous configuration is
started again. -/
def failedStart : List Answer := List.replicate 10 works ++ broken :: List.replicate 10 works

/-- A call that leaves the row idle has not stranded. -/
theorem not_strands_of_idle {config : Configuration} {m m' : Machine S} {answers : List Answer}
    {result : Option ApplyResult} (hrun : (apply sink config).run m answers = (m', result))
    (hidle : m'.Idle) : ¬ Strands sink config m answers := by
  intro hstrands
  obtain ⟨m'', result', hrun', hblocked⟩ := apply_of_strands sink hstrands
  obtain rfl := (Prod.mk.inj (hrun.symm.trans hrun')).1
  exact hblocked fun _ _ _ => prepareCore_ne_conflict hidle

/-- The rollback starts the first configuration with the users of the second policy. -/
theorem apply_rolledBack {first second : Configuration} (h₁ : Acceptable first ["u"])
    (h₂ : Acceptable second []) (hle : 1 ≤ first.policyRevision)
    (hlt : first.policyRevision < second.policyRevision)
    (hmerge : mergeAuthorization first.json second.authorization = some second.json)
    (stored : List CoreState) (started : List Started) :
    ∃ stored' started' result, (apply accepting second).run
      { core := some (appliedRow first), usage := (), pendingFinal := [], stored, started
        active := some (runningInstance first ["u"]) } failedStart =
      ({ core := some { appliedRow second with appliedRevision := first.revisionID }, usage := ()
         pendingFinal := [], stored := stored', started := started'
         active := some (runningInstance second []) }, some result) := by
  obtain ⟨⟨auth, hparse⟩, hlatest, hcheck, hbuilt⟩ := h₂
  have hlists := (checkConfiguration_eq_none h₁.checked).2
  have hne : first.json ≠ [] := hlists.ne_nil
  obtain ⟨hpersist, hprepare⟩ := @taken_of_idle second (some (appliedRow first)) (appliedRow first)
    rfl rfl (zero_le_one.trans hle) hlt
  have hcommit (saved : CoreState) : commitCore first.revisionID second.policyRevision
      second.json (some saved) =
      .ok (some (saved.commit first.revisionID second.policyRevision second.json)) :=
    commitCore_some (by omega) saved
  have hpolicy : (appliedRow first).appliedPolicy ≠ second.policyRevision := hlt.ne
  generalize hnew : ((appliedRow first).persist second.policyRevision second.authorization).prepare
    second.taskID second.revisionID second.policyRevision second.json = new at hprepare
  have hauth : new.authorization = second.authorization := by rw [← hnew]; rfl
  have hfloor : new.policyFloor = second.policyRevision := by rw [← hnew]; rfl
  have hconfig : (appliedRow first).appliedConfig = first.json := rfl
  have hrevision : (appliedRow first).appliedRevision = first.revisionID := rfl
  simp [Machine.write, Prog.run, failedStart, works, broken, accepting, hparse, hlatest, hcheck,
    hbuilt, hpersist, hprepare, hcommit, apply, coreState, readCore, writeCore, applyPersisted,
    unchanged, build, applyBuilt, applyPrepared, replaceWith, detach, closeInstance, start,
    retryFinal, retryFinalFrom, persistAny, persist, activate, runningInstance, Tracker.counters,
    userIDs_singleton, userIDs_nil, hpolicy, rollback, restore, hauth, hfloor, hconfig, hrevision,
    hne, hmerge]
  rw [← hnew]
  rfl

/-- A task without users follows another one. -/
theorem apply_next {config previous : Configuration} (h : Acceptable config []) {row : CoreState}
    (hidle : row.stage = .idle) (hle : 0 ≤ row.policyFloor)
    (hlt : row.policyFloor < config.policyRevision)
    (hpolicy : row.appliedPolicy ≠ config.policyRevision)
    (stored : List CoreState) (started : List Started) :
    ∃ stored' started' result, (apply accepting config).run
      { core := some row, usage := (), pendingFinal := [], stored, started
        active := some (runningInstance previous []) } (List.replicate 13 works) =
      ({ core := some (appliedRow config), usage := (), pendingFinal := [], stored := stored'
         started := started', active := some (runningInstance config []) }, some result) := by
  obtain ⟨⟨auth, hparse⟩, hlatest, hcheck, hbuilt⟩ := h
  obtain ⟨hpersist, hprepare⟩ := @taken_of_idle config (some row) row rfl hidle hle hlt
  have hcommit (saved : CoreState) : commitCore config.revisionID config.policyRevision
      config.json (some saved) =
      .ok (some (saved.commit config.revisionID config.policyRevision config.json)) :=
    commitCore_some (by omega) saved
  simp [Machine.write, Prog.run, works, accepting, hparse, hlatest, hcheck, hbuilt, hpersist,
    hprepare, hcommit, apply, coreState, readCore, writeCore, applyPersisted, unchanged, build,
    applyBuilt, applyPrepared, replaceWith, detach, closeInstance, start, retryFinal,
    retryFinalFrom, persistAny, activate, runningInstance, Tracker.counters, userIDs_nil, hpolicy]
  rfl

/-- A task that follows the one that is rolled back. -/
def thirdTask : Configuration := managedTask "task-3" 3 []

theorem thirdTask_manageable : Manageable "task-3" 3 [] where
  read := by decide +kernel
  positive := by decide
  valid := by decide +kernel
  short := by decide +kernel

/-- A task is applied, the next one is rolled back, and a third one is applied. -/
def rolledBackCalls : List (Configuration × List Answer) :=
  [(firstTask, List.replicate 12 works), (secondTask, failedStart),
    (thirdTask, List.replicate 13 works)]

theorem applyAll_rolledBack : ∃ m', applyAll accepting (Machine.init ()) rolledBackCalls = some m' ∧
    NeverStrands accepting (Machine.init ()) rolledBackCalls := by
  obtain ⟨stored, started, result, hfirst⟩ := apply_first firstTask_acceptable (by decide)
  obtain ⟨stored', started', result', hsecond⟩ := apply_rolledBack firstTask_acceptable
    secondTask_acceptable (by decide) (by decide)
    (firstTask_manageable.merge secondTask_manageable) stored started
  obtain ⟨stored'', started'', result'', hthird⟩ := @apply_next thirdTask secondTask
    thirdTask_manageable.acceptable
    { appliedRow secondTask with appliedRevision := firstTask.revisionID } rfl (by decide)
    (by decide) (by decide) stored' started'
  rw [rolledBackCalls, applyAll_cons accepting hfirst, applyAll_cons accepting hsecond,
    applyAll_cons accepting hthird]
  refine ⟨_, rfl, ?_⟩
  simp only [NeverStrands, hfirst, hsecond, and_true]
  exact ⟨not_strands_of_idle accepting hfirst rfl, not_strands_of_idle accepting hsecond rfl,
    not_strands_of_idle accepting hthird rfl⟩

/-- Neither the rollback nor the tasks around it strand anything. -/
theorem rolledBack_released : ∃ m', applyAll accepting (Machine.init ()) rolledBackCalls = some m' ∧
    Accepts m'.core := by
  obtain ⟨m', hrun, hnever⟩ := applyAll_rolledBack
  have hidle : (Machine.init ()).Idle := rfl
  refine ⟨m', hrun, stage_released accepting hidle ?_ hnever hrun⟩
  simp [rolledBackCalls, failedStart, works, broken]

end Bifurcation.Daemon
