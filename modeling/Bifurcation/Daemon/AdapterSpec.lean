import Bifurcation.Daemon.Adapter
import Bifurcation.Daemon.PolicySpec

/-!
# What the adapter's steps preserve

A frame lemma for each part of the adapter that touches neither the core row nor the active
instance, a rule for each access to the store, and two invariants over them: `Sound` holds at
every point where the process can be killed, `Live` whenever a call has returned.
-/

namespace Bifurcation.Daemon

open Prog

variable {S : Type} {A : Answer → Prop}

/-! ## Frames -/

/-- A condition on everything but the usage tables and the queue of final samples. -/
def Framed (P : Machine S → Prop) : Prop :=
  ∀ m usage pendingFinal, P m → P { m with usage, pendingFinal }

section Frames

variable (sink : Option (S → List Counter → Except StoreError S)) {P C : Machine S → Prop}
  (hP : Framed P) (hC : ∀ m, P m → C m)

include hP hC

theorem persist_frame (sample : List Counter) :
    Triple A P (persist sink sample) (fun _ => P) C := by
  unfold persist
  cases sink with
  | none => exact triple_pure fun _ h => h
  | some sink =>
    refine triple_bind (triple_ask hC fun _ _ _ h => h) fun answer => ?_
    by_cases hstored : answer.stored
    · simp only [hstored, not_true, if_false]
      refine triple_bind (R := fun _ => P) (triple_get fun _ h => h) fun m => ?_
      cases sink m.usage sample with
      | error e => exact triple_pure fun _ h => h
      | ok usage =>
        exact triple_bind (triple_modify fun s h => hP s usage s.pendingFinal h) fun _ =>
          triple_pure fun _ h => h
    · simp only [hstored]
      exact triple_pure fun _ h => h

theorem persistAny_frame (sample : List Counter) :
    Triple A P (persistAny sink sample) (fun _ => P) C :=
  triple_ite (fun _ => persist_frame sink hP hC sample) fun _ => triple_pure fun _ h => h

theorem retryFinal_frame : Triple A P (retryFinal sink) (fun _ => P) C := by
  have hloop (n : ℕ) : Triple A P (retryFinalFrom sink n) (fun _ => P) C := by
    induction n with
    | zero => exact triple_pure fun _ h => h
    | succ n ih =>
      refine triple_bind (R := fun _ => P) (triple_get fun _ h => h) fun m => ?_
      cases m.pendingFinal with
      | nil => exact triple_pure fun _ h => h
      | cons sample rest =>
        refine triple_bind (persist_frame sink hP hC sample) fun fault => ?_
        cases fault with
        | some fault => exact triple_pure fun _ h => h
        | none => exact triple_bind (triple_modify fun s h => hP s s.usage _ h) fun _ => ih
  exact triple_bind (R := fun _ => P) (triple_get fun _ h => h) fun m => hloop _

theorem closeInstance_frame (current : Option Instance) :
    Triple A P (closeInstance sink current) (fun _ => P) C := by
  unfold closeInstance
  cases current with
  | none => exact triple_pure fun _ h => h
  | some current =>
    refine triple_bind (triple_ask hC fun _ _ _ h => h) fun box => ?_
    cases current.tracker with
    | none => exact triple_pure fun _ h => h
    | some tracker =>
      refine triple_bind (triple_ask hC fun _ _ _ h => h) fun drained => ?_
      by_cases hdrained : drained.ok
      · simp only [hdrained, not_true, if_false]
        refine triple_bind (triple_ask hC fun _ _ _ h => h) fun traffic => ?_
        refine triple_bind (persistAny_frame sink hP hC _) fun finalErr => ?_
        exact triple_ite
          (fun _ => triple_bind (triple_modify fun s h => hP s s.usage _ h) fun _ =>
            triple_pure fun _ h => h)
          fun _ => triple_pure fun _ h => h
      · simp only [hdrained]
        exact triple_pure fun _ h => h

/-- Starting keeps a condition that does not mind the instance in the history of starts. -/
theorem start_frame (current : Instance)
    (hstart : ∀ m tracker, P m → P { m with
      started := m.started ++ [⟨{ current with tracker }, (readCore m.core).authorization⟩] }) :
    Triple A P (start sink current) (fun r m => P m ∧ ∃ tracker, r.1 = { current with tracker })
      C := by
  refine triple_bind (retryFinal_frame sink hP hC) fun fault => ?_
  cases fault with
  | some fault => exact triple_pure fun _ h => ⟨h, current.tracker, rfl⟩
  | none =>
    refine triple_bind (triple_ask hC fun _ _ _ h => h) fun began => ?_
    refine triple_bind (triple_ask hC fun _ _ _ h => h) fun clock => ?_
    refine triple_bind (persistAny_frame sink hP hC _) fun fault => ?_
    cases fault with
    | some fault => exact triple_pure fun _ h => ⟨h, _, rfl⟩
    | none =>
      refine triple_bind (R := fun _ => P) (triple_modify fun m h => hstart m _ h) fun _ => ?_
      refine triple_bind (triple_ask hC fun _ _ _ h => h) fun box => ?_
      exact triple_ite (fun _ => triple_pure fun _ h => ⟨h, _, rfl⟩) fun _ =>
        triple_bind (triple_ask hC fun _ _ _ h => h) fun context =>
          triple_pure fun _ h => ⟨h, _, rfl⟩

end Frames

/-! ## Accesses to the store and the library -/

section Rules

variable {P C : Machine S → Prop} (hC : ∀ m, P m → C m)

include hC

theorem triple_coreState {Q : Except Fault CoreState → Machine S → Prop}
    (hread : ∀ m, P m → Q (.ok (readCore m.core)) m)
    (hlost : ∀ m o, A o → o.stored = false → P m → Q (.error .database) m) :
    Triple A P coreState Q C := by
  refine triple_bind (R := fun o m => A o ∧ P m) (triple_ask hC fun _ _ ho h => ⟨ho, h⟩)
    fun answer => ?_
  refine triple_bind (R := fun m m' => m = m' ∧ A answer ∧ P m) (triple_get fun m h => ⟨rfl, h⟩)
    fun m => ?_
  refine triple_pure fun m' h => ?_
  obtain ⟨rfl, ho, h⟩ := h
  by_cases hstored : answer.stored
  · rw [if_pos hstored]
    exact hread m h
  · rw [if_neg hstored]
    exact hlost m answer ho (Bool.eq_false_iff.2 hstored) h

theorem triple_writeCore {write : CoreRow → Except CoreError CoreRow}
    {Q : Option Fault → Machine S → Prop}
    (hok : ∀ m row, P m → write m.core = .ok row → Q none (m.write row))
    (herror : ∀ m e, P m → write m.core = .error e → Q (some (.core e)) m)
    (hlost : ∀ m o, A o → o.stored = false → P m → Q (some .database) m) :
    Triple A P (writeCore write) Q C := by
  refine triple_bind (R := fun o m => A o ∧ P m) (triple_ask hC fun _ _ ho h => ⟨ho, h⟩)
    fun answer => ?_
  by_cases hstored : answer.stored
  · simp only [hstored, not_true, if_false]
    refine triple_bind (R := fun m m' => m = m' ∧ A answer ∧ P m) (triple_get fun m h => ⟨rfl, h⟩)
      fun m => ?_
    cases hw : write m.core with
    | error e =>
      refine triple_pure fun m' h => ?_
      obtain ⟨rfl, -, h⟩ := h
      exact herror m e h hw
    | ok row =>
      refine triple_bind (R := fun _ m' => m' = m.write row ∧ P m)
        (triple_modify fun m' h => ?_) fun _ => triple_pure fun m' h => ?_
      · obtain ⟨rfl, -, h⟩ := h
        exact ⟨rfl, h⟩
      · rw [h.1]
        exact hok m row h.2 hw
  · simp only [hstored]
    exact triple_pure fun m h => hlost m answer h.1 (Bool.eq_false_iff.2 hstored) h.2

theorem triple_build {raw authorization : Bytes} {Q : Option Instance → Machine S → Prop}
    (hnone : ∀ m, P m → Q none m)
    (hsome : ∀ m runtimeID users revision, builtFrom raw authorization = some (users, revision) →
      P m → Q (some ⟨runtimeID, users, none, raw, authorization, revision⟩) m) :
    Triple A P (build raw authorization) Q C := by
  unfold build
  cases hb : builtFrom raw authorization with
  | none => exact triple_pure hnone
  | some built =>
    refine triple_bind (triple_ask hC fun _ _ _ h => h) fun box => triple_pure fun m h => ?_
    split_ifs
    · exact hsome m _ _ _ hb h
    · exact hnone m h

end Rules

/-- Taking the active instance out of the machine. -/
theorem triple_detach {P C : Machine S → Prop} {Q : Option Instance → Machine S → Prop}
    (h : ∀ m, P m → Q m.active { m with active := none }) :
    Triple A P detach Q C := by
  refine triple_bind (R := fun m m' => m = m' ∧ P m) (triple_get fun m h => ⟨rfl, h⟩)
    fun m => ?_
  refine triple_bind (R := fun _ m' => m' = { m with active := none } ∧ P m)
    (triple_modify fun m' h => ?_) fun _ => triple_pure fun m' h' => ?_
  · obtain ⟨rfl, h⟩ := h
    exact ⟨rfl, h⟩
  · rw [h'.1]
    exact h m h'.2

/-! ## The exits of `Apply` once the policy is stored -/

/-- `PrepareCore` does not store the task. -/
def PrepareFails (config : Configuration) (row : CoreRow) (prepare : Answer) : Prop :=
  prepare.stored = false ∨ ∃ e,
    prepareCore config.taskID config.revisionID config.policyRevision config.json row = .error e

/-- The candidate that `Apply` builds. -/
def candidateOf (config : Configuration) (authorization : Bytes) (box : Answer)
    (built : List String × Int) : Instance :=
  { runtimeID := "embedded-" ++ box.nonce, users := built.1, tracker := none
    config := config.json, authorization, revision := built.2 }

/-- Where a run of `applyPersisted` can end. -/
inductive PersistedExit (sink : Option (S → List Counter → Except StoreError S))
    (config : Configuration) (previous : CoreState) (revision : Int) (auth : Bytes)
    (m : Machine S) (answers : List Answer) :
    Machine S × Option (ApplyResult × List Answer) → Prop
  /-- A check or the build failed. -/
  | failed (cause : Fault) (rest : List Answer) (hrest : ∀ o ∈ rest, o ∈ answers) :
      PersistedExit sink config previous revision auth m answers
        (fail sink previous revision cause m rest)
  /-- The configuration is running already. -/
  | running (hcheck : checkConfiguration config revision auth = none)
      (hunchanged : unchanged m.active previous config = true) :
      PersistedExit sink config previous revision auth m answers
        (m, some (⟨.notNeeded, []⟩, answers))
  /-- The process was killed while the candidate was built or prepared. -/
  | killed : PersistedExit sink config previous revision auth m answers (m, none)
  /-- The candidate could not be prepared. -/
  | refused (hcheck : checkConfiguration config revision auth = none)
      (hchanged : unchanged m.active previous config = false)
      (hbuilt : (builtFrom config.json auth).isSome) (box prepare : Answer) (rest : List Answer)
      (hanswers : answers = box :: prepare :: rest) (hbox : box.ok = true)
      (hfails : PrepareFails config m.core prepare) (result : ApplyResult) :
      PersistedExit sink config previous revision auth m answers (m, some (result, rest))
  /-- The task is prepared. -/
  | prepared (hcheck : checkConfiguration config revision auth = none)
      (hchanged : unchanged m.active previous config = false) (built : List String × Int)
      (hbuilt : builtFrom config.json auth = some built) (box prepare : Answer)
      (rest : List Answer) (hanswers : answers = box :: prepare :: rest) (hbox : box.ok = true)
      (hstored : prepare.stored = true) (row : CoreRow)
      (hprepare : prepareCore config.taskID config.revisionID config.policyRevision config.json
        m.core = .ok row) :
      PersistedExit sink config previous revision auth m answers
        (applyPrepared sink config previous (candidateOf config auth box built) (m.write row) rest)

theorem applyPersisted_exit (sink : Option (S → List Counter → Except StoreError S))
    (config : Configuration) (previous : CoreState) (revision : Int) (auth : Bytes)
    (m : Machine S) (answers : List Answer) :
    PersistedExit sink config previous revision auth m answers
      (applyPersisted sink config previous revision auth m answers) := by
  unfold applyPersisted
  cases hcheck : checkConfiguration config revision auth with
  | some cause => exact .failed cause answers fun _ h => h
  | none =>
    simp only [bind_apply, get_apply]
    cases hchanged : unchanged m.active previous config with
    | true => exact .running hcheck hchanged
    | false =>
      simp only [Bool.false_eq_true, if_false, bind_apply, build]
      cases hbuilt : builtFrom config.json auth with
      | none => exact .failed .build answers fun _ h => h
      | some built =>
        rcases answers with _ | ⟨box, answers⟩
        · exact .killed
        · by_cases hbox : box.ok
          · simp only [bind_apply, ask_cons, hbox, if_true, pure_apply, applyBuilt, writeCore]
            rcases answers with _ | ⟨prepare, answers⟩
            · exact .killed
            · by_cases hstored : prepare.stored
              · simp only [ask_cons, hstored, not_true, if_false]
                cases hprepare : prepareCore config.taskID config.revisionID config.policyRevision
                    config.json m.core with
                | error e =>
                  simp only [bind_apply, get_apply, hprepare, pure_apply]
                  exact .refused hcheck hchanged (by rw [hbuilt]; rfl) box prepare answers rfl hbox
                    (.inr ⟨e, hprepare⟩) _
                | ok row =>
                  simp only [bind_apply, get_apply, hprepare, modify_apply, pure_apply]
                  exact .prepared hcheck hchanged built hbuilt box prepare answers rfl hbox hstored
                    row hprepare
              · simp only [ask_cons, hstored]
                exact .refused hcheck hchanged (by rw [hbuilt]; rfl) box prepare answers rfl hbox
                  (.inl (Bool.eq_false_iff.2 hstored)) _
          · simp only [bind_apply, ask_cons, hbox, Bool.false_eq_true, if_false, pure_apply]
            exact .failed .build answers fun _ h => List.mem_cons_of_mem box h

end Bifurcation.Daemon
