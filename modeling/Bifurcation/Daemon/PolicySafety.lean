import Bifurcation.Daemon.AdapterSpec

/-!
# Policy safety of the adapter

Two invariants of the machine. `Sound` is about what is durable, and holds at every point where
the process can be killed: the stored core state is consistent, its policy floor never falls, and
what was started lists the users stored at that moment. `Live` is about the running instance, and
holds whenever a call has returned: its users are at least as recent as the applied policy.
-/

namespace Bifurcation.Daemon

open Prog

variable {S : Type}

/-! ## The stored core state -/

/-- The stored authorization is a canonical document of the policy floor, the applied policy is
not above the floor, and at the floor the applied configuration lists the authorized users. -/
structure CoreState.Consistent (saved : CoreState) : Prop where
  policy : (saved.policyFloor = 0 ∧ saved.authorization = []) ∨ ∃ auth,
    parseAuthorization saved.authorization = some (auth, saved.policyFloor, saved.authorization)
  applied_le : saved.appliedPolicy ≤ saved.policyFloor
  lists : saved.appliedConfig ≠ [] → saved.appliedPolicy = saved.policyFloor →
    ConfigLists saved.appliedConfig saved.authorization

theorem CoreState.consistent_empty : CoreState.Consistent {} where
  policy := .inl ⟨rfl, rfl⟩
  applied_le := le_refl _
  lists h := absurd rfl h

/-- Consistency is about the policy and the applied configuration only. -/
theorem CoreState.Consistent.of_fields {saved saved' : CoreState} (h : saved.Consistent)
    (hfloor : saved'.policyFloor = saved.policyFloor)
    (hauth : saved'.authorization = saved.authorization)
    (hpolicy : saved'.appliedPolicy = saved.appliedPolicy)
    (hconfig : saved'.appliedConfig = saved.appliedConfig) : saved'.Consistent := by
  obtain ⟨h₁, h₂, h₃⟩ := h
  rw [← hfloor, ← hauth] at h₁
  rw [← hpolicy, ← hfloor] at h₂
  rw [← hconfig, ← hpolicy, ← hfloor, ← hauth] at h₃
  exact ⟨h₁, h₂, h₃⟩

theorem parseAuthorization_nil : parseAuthorization [] = none := by decide +kernel

/-- A policy that `PersistPolicy` accepts leaves a consistent row. -/
theorem CoreState.Consistent.persist {row row' : CoreRow} {data auth : Bytes}
    {parsed : Authorization} {revision : Int} (h : (readCore row).Consistent)
    (hparse : parseAuthorization data = some (parsed, revision, auth))
    (hwrite : persistPolicy revision auth row = .ok row') :
    row' = some ((readCore row).persist revision auth) ∧
      (readCore row).policyFloor ≤ revision ∧
      ((readCore row).persist revision auth).Consistent := by
  obtain ⟨hle, hsame, rfl⟩ := persistPolicy_eq_ok hwrite
  refine ⟨rfl, hle, .inr ⟨parsed, parseAuthorization_canonical hparse⟩, h.applied_le.trans hle,
    fun hconfig hpolicy => ?_⟩
  -- the applied policy is the new floor only if the floor did not move
  have hpolicy' : (readCore row).appliedPolicy = revision := hpolicy
  have hfloor : revision = (readCore row).policyFloor :=
    le_antisymm (hpolicy' ▸ h.applied_le) hle
  have hlists := h.lists hconfig (hpolicy'.trans hfloor)
  rcases hsame hfloor with hnil | heq
  · obtain ⟨_, _, _, _, -, hparsed, -⟩ := hlists
    rw [hnil, parseAuthorization_nil] at hparsed
    cases hparsed
  · rw [heq] at hlists
    exact hlists

/-- Committing a configuration that lists the stored users keeps the row consistent. -/
theorem CoreState.Consistent.commit {saved : CoreState} (h : saved.Consistent) (revision : String)
    {policy : Int} {config : Bytes} (hle : policy ≤ saved.policyFloor)
    (hlists : ConfigLists config saved.authorization) :
    (saved.commit revision policy config).Consistent where
  policy := h.policy
  applied_le := hle
  lists _ _ := hlists

theorem decodeConfig_ne_nil {config : Bytes} {tree : List (String × Json)}
    (h : decodeConfig config = some tree) : config ≠ [] := by
  rintro rfl
  cases h

theorem ConfigLists.ne_nil {config authorization : Bytes} (h : ConfigLists config authorization) :
    config ≠ [] := by
  obtain ⟨_, _, _, _, hread, -, -⟩ := h
  exact decodeConfig_ne_nil hread

/-- What `build` has checked. -/
theorem builtFrom_eq_some {raw authorization : Bytes} {users : List String} {revision : Int}
    (h : builtFrom raw authorization = some (users, revision)) :
    ∃ tree auth canonical, decodeConfig raw = some tree ∧
      parseAuthorization authorization = some (auth, revision, canonical) := by
  simp only [builtFrom, Option.bind_eq_bind, Option.bind_eq_some_iff] at h
  obtain ⟨⟨auth, revision', canonical⟩, hauth, tree, htree, h⟩ := h
  split_ifs at h
  cases h
  exact ⟨tree, auth, canonical, htree, hauth⟩

/-- Against the stored authorization, a build yields the policy floor. -/
theorem CoreState.Consistent.built {saved : CoreState} (h : saved.Consistent) {raw : Bytes}
    {users : List String} {revision : Int}
    (hb : builtFrom raw saved.authorization = some (users, revision)) :
    revision = saved.policyFloor ∧ ∃ tree, decodeConfig raw = some tree := by
  obtain ⟨tree, auth, canonical, htree, hauth⟩ := builtFrom_eq_some hb
  refine ⟨?_, tree, htree⟩
  rcases h.policy with ⟨-, hnil⟩ | ⟨auth', hauth'⟩
  · rw [hnil, parseAuthorization_nil] at hauth
    cases hauth
  · rw [hauth'] at hauth
    cases hauth
    rfl

/-! ## The machine -/

/-- What holds of the durable part at every moment, with a bound for the policy floor. -/
structure Machine.Sound (floor : Int) (m : Machine S) : Prop where
  consistent : (readCore m.core).Consistent
  floor_le : floor ≤ (readCore m.core).policyFloor
  last : m.core = m.stored.getLast?
  sorted : (m.stored.map (·.policyFloor)).Pairwise (· ≤ ·)
  le_floor : ∀ saved ∈ m.stored, saved.policyFloor ≤ (readCore m.core).policyFloor
  stored : ∀ saved ∈ m.stored, saved.Consistent
  started : ∀ s ∈ m.started, ConfigLists s.current.config s.stored

/-- An instance that runs over a stored row is at least as recent as the applied policy. -/
def CoreState.Serves (saved : CoreState) (active : Option Instance) : Prop :=
  ∀ current, active = some current →
    saved.appliedPolicy ≤ current.revision ∧ saved.appliedConfig ≠ []

def Machine.Live (m : Machine S) : Prop := (readCore m.core).Serves m.active

/-- No instance of an earlier policy is running. -/
def Machine.Revoked (revision : Int) (m : Machine S) : Prop :=
  ∀ current, m.active = some current → revision ≤ current.revision

/-- What every call leaves. -/
structure Machine.Settled (floor : Int) (m : Machine S) : Prop where
  sound : m.Sound floor
  live : m.Live

/-- What a call that has stored a policy revision should leave. -/
structure Machine.Enforced (revision : Int) (m : Machine S) : Prop extends
    m.Settled revision where
  revoked : m.Revoked revision

theorem Machine.Sound.mono {f g : Int} {m : Machine S} (h : m.Sound g) (hle : f ≤ g) :
    m.Sound f :=
  { h with floor_le := hle.trans h.floor_le }

theorem Machine.sound_framed {f : Int} {saved : CoreState} {active : Option Instance} :
    Framed fun m : Machine S => m.Sound f ∧ readCore m.core = saved ∧ m.active = active :=
  fun _ _ _ h => ⟨⟨h.1.1, h.1.2, h.1.3, h.1.4, h.1.5, h.1.6, h.1.7⟩, h.2⟩

theorem Machine.Sound.of_active {f : Int} {m : Machine S} (h : m.Sound f)
    (active : Option Instance) : Machine.Sound f { m with active } :=
  ⟨h.1, h.2, h.3, h.4, h.5, h.6, h.7⟩

/-- Storing a consistent row whose floor is not lower. -/
theorem Machine.Sound.write {f : Int} {m : Machine S} {saved : CoreState} (h : m.Sound f)
    (hsaved : saved.Consistent) (hle : (readCore m.core).policyFloor ≤ saved.policyFloor) :
    Machine.Sound saved.policyFloor (m.write (some saved)) where
  consistent := hsaved
  floor_le := le_refl _
  last := by simp [Machine.write]
  sorted := by
    simp only [Machine.write, Option.toList_some, List.map_append, List.map_cons, List.map_nil]
    refine List.pairwise_append.2 ⟨h.sorted, List.pairwise_singleton _ _, fun n hn n' hn' => ?_⟩
    obtain ⟨saved', hsaved', rfl⟩ := List.mem_map.1 hn
    rw [List.mem_singleton.1 hn']
    exact (h.le_floor saved' hsaved').trans hle
  le_floor := by
    intro saved' hsaved'
    rcases List.mem_append.1 hsaved' with hold | hnew
    · exact (h.le_floor saved' hold).trans hle
    · rw [List.mem_singleton.1 hnew]
      exact le_refl _
  stored := by
    intro saved' hsaved'
    rcases List.mem_append.1 hsaved' with hold | hnew
    · exact h.stored saved' hold
    · rw [List.mem_singleton.1 hnew]
      exact hsaved
  started := h.started

/-- Starting an instance that lists the stored users. -/
theorem Machine.Sound.start {f : Int} {m : Machine S} (h : m.Sound f) (current : Instance)
    (hlists : ConfigLists current.config (readCore m.core).authorization) :
    Machine.Sound f { m with
      started := m.started ++ [⟨current, (readCore m.core).authorization⟩] } := by
  refine ⟨h.1, h.2, h.3, h.4, h.5, h.6, fun s hs => ?_⟩
  rcases List.mem_append.1 hs with hold | hnew
  · exact h.started s hold
  · rw [List.mem_singleton.1 hnew]
    exact hlists

/-! ## One call -/

section Calls

variable (sink : Option (S → List Counter → Except StoreError S)) {A : Answer → Prop} {f : Int}
  {saved : CoreState}

/-- The durable state while a call holds the stored row `saved` and runs `active`. -/
def Machine.Holds (f : Int) (saved : CoreState) (active : Option Instance) (m : Machine S) :
    Prop :=
  m.Sound f ∧ readCore m.core = saved ∧ m.active = active

theorem Machine.Holds.framed {active : Option Instance} :
    Framed (Machine.Holds (S := S) f saved active) := Machine.sound_framed

theorem Machine.Holds.sound {active : Option Instance} (m : Machine S)
    (h : m.Holds f saved active) : m.Sound f := h.1

theorem triple_detach_holds {active : Option Instance} :
    Triple A (Machine.Holds (S := S) f saved active) detach
      (fun old m => old = active ∧ m.Holds f saved none) (Machine.Sound f) :=
  triple_detach fun _ h => ⟨h.2.2, h.1.of_active none, h.2.1, rfl⟩

theorem triple_activate_holds {active : Option Instance} (current : Option Instance) :
    Triple A (Machine.Holds (S := S) f saved active) (activate current)
      (fun _ => Machine.Holds f saved current) (Machine.Sound f) :=
  triple_modify fun _ h => ⟨h.1.of_active current, h.2.1, rfl⟩

theorem triple_coreState_holds {active : Option Instance} :
    Triple A (Machine.Holds (S := S) f saved active) coreState
      (fun r m => m.Holds f saved active ∧ ∀ latest, r = .ok latest → latest = saved)
      (Machine.Sound f) := by
  refine triple_coreState Machine.Holds.sound (fun _ h => ⟨h, fun latest heq => ?_⟩)
    fun _ _ _ _ h => ⟨h, fun latest heq => by cases heq⟩
  cases heq
  exact h.2.1

/-- Starting an instance whose configuration lists the stored users. -/
theorem triple_start_holds {active : Option Instance} {current : Instance}
    (hlists : ConfigLists current.config saved.authorization) :
    Triple A (Machine.Holds (S := S) f saved active) (start sink current)
      (fun r m => m.Holds f saved active ∧ ∃ tracker, r.1 = { current with tracker })
      (Machine.Sound f) :=
  start_frame sink Machine.Holds.framed Machine.Holds.sound current fun m tracker h =>
    ⟨h.1.start { current with tracker } (by rw [h.2.1]; exact hlists), h.2⟩

theorem triple_closeInstance_holds {active : Option Instance} (current : Option Instance) :
    Triple A (Machine.Holds (S := S) f saved active) (closeInstance sink current)
      (fun _ => Machine.Holds f saved active) (Machine.Sound f) :=
  closeInstance_frame sink Machine.Holds.framed Machine.Holds.sound current

/-- A build yields an instance of the stored policy. -/
theorem triple_build_holds {active : Option Instance} (hsaved : saved.Consistent)
    {raw : Bytes} :
    Triple A (Machine.Holds (S := S) f saved active) (build raw saved.authorization)
      (fun r m => m.Holds f saved active ∧ ∀ current, r = some current →
        current.config = raw ∧ current.revision = saved.policyFloor ∧
          ∃ tree, decodeConfig raw = some tree)
      (Machine.Sound f) := by
  refine triple_build Machine.Holds.sound (fun m h => ⟨h, fun current heq => by cases heq⟩)
    fun m runtimeID users revision hb h => ⟨h, fun current heq => ?_⟩
  cases heq
  exact ⟨rfl, hsaved.built hb⟩

theorem Machine.Holds.write {active : Option Instance} {m : Machine S}
    (h : m.Holds f saved active) {new : CoreState} (hnew : new.Consistent)
    (hle : saved.policyFloor ≤ new.policyFloor) : (m.write (some new)).Holds f new active := by
  obtain ⟨hsound, rfl, hactive⟩ := h
  exact ⟨(hsound.write hnew hle).mono (hsound.floor_le.trans hle), rfl, hactive⟩

/-- A write that turns the stored row into a consistent one. -/
theorem triple_writeCore_holds {active : Option Instance} {new : CoreState}
    {write : CoreRow → Except CoreError CoreRow}
    (hwrite : ∀ row row', readCore row = saved → write row = .ok row' → row' = some new)
    (hnew : saved.Consistent → new.Consistent) (hle : saved.policyFloor ≤ new.policyFloor) :
    Triple A (Machine.Holds (S := S) f saved active) (writeCore write)
      (fun fault => Machine.Holds f (fault.elim new fun _ => saved) active) (Machine.Sound f) := by
  refine triple_writeCore Machine.Holds.sound (fun m row h hw => ?_) (fun m e h _ => h)
    fun m o _ _ h => h
  obtain rfl := hwrite m.core row h.2.1 hw
  exact h.write (hnew (h.2.1 ▸ h.1.consistent)) hle

theorem triple_commit_holds {active : Option Instance} (revision : String) {policy : Int}
    {config : Bytes} (hle : policy ≤ saved.policyFloor)
    (hlists : ConfigLists config saved.authorization) :
    Triple A (Machine.Holds (S := S) f saved active) (writeCore (commitCore revision policy config))
      (fun fault => Machine.Holds f (fault.elim (saved.commit revision policy config)
        fun _ => saved) active) (Machine.Sound f) := by
  refine triple_writeCore_holds (fun row row' hrow hw => ?_) (fun h => h.commit revision hle hlists)
    (le_refl _)
  obtain ⟨saved', rfl, rfl⟩ := commitCore_eq_ok hw
  obtain rfl : saved' = saved := hrow
  rfl

theorem triple_abort_holds {active : Option Instance} :
    Triple A (Machine.Holds (S := S) f saved active) (writeCore abortCore)
      (fun fault => Machine.Holds f (fault.elim saved.settle fun _ => saved) active)
      (Machine.Sound f) := by
  refine triple_writeCore_holds (fun row row' hrow hw => ?_)
    (fun h => h.of_fields rfl rfl rfl rfl) (le_refl _)
  obtain ⟨saved', rfl, rfl⟩ := abortCore_eq_ok hw
  obtain rfl : saved' = saved := hrow
  rfl

theorem triple_prepare_holds {active : Option Instance} (task revision : String) (policy : Int)
    (config : Bytes) :
    Triple A (Machine.Holds (S := S) f saved active)
      (writeCore (prepareCore task revision policy config))
      (fun fault => Machine.Holds f (fault.elim (saved.prepare task revision policy config)
        fun _ => saved) active) (Machine.Sound f) := by
  refine triple_writeCore_holds (fun row row' hrow hw => ?_)
    (fun h => h.of_fields rfl rfl rfl rfl) (le_refl _)
  obtain ⟨saved', rfl, -, -, rfl⟩ := prepareCore_eq_ok hw
  obtain rfl : saved' = saved := hrow
  rfl

/-- The previous configuration is either running, or nothing is. -/
theorem triple_restore {safe : Bytes} (hsaved : saved.Consistent)
    (hlists : ∀ tree, decodeConfig safe = some tree → ConfigLists safe saved.authorization) :
    Triple A (Machine.Holds (S := S) f saved none) (restore sink safe saved.authorization)
      (fun fault m => (fault.isSome → m.Holds f saved none) ∧
        (fault = none → ConfigLists safe saved.authorization ∧ ∃ current,
          m.Holds f saved (some current) ∧ current.revision = saved.policyFloor))
      (Machine.Sound f) := by
  refine triple_bind (triple_build_holds hsaved) fun restored => ?_
  cases restored with
  | none =>
    refine triple_extract (fun m h => ⟨h.1, trivial⟩) fun _ => ?_
    exact triple_bind (triple_activate_holds none) fun _ =>
      triple_pure fun m h => ⟨fun _ => h, fun heq => by cases heq⟩
  | some restored =>
    refine triple_extract (fun m h => ⟨h.1, h.2 restored rfl⟩) fun hbuilt => ?_
    obtain ⟨rfl, hrevision, tree, htree⟩ := hbuilt
    have hlisted := hlists tree htree
    refine triple_bind (triple_start_holds sink hlisted) fun started => ?_
    obtain ⟨current, fault⟩ := started
    refine triple_extract (fun m h => ⟨h.1, h.2⟩) fun htracker => ?_
    obtain ⟨tracker, rfl⟩ := htracker
    cases fault with
    | some fault =>
      refine triple_bind (triple_closeInstance_holds sink _) fun _ => ?_
      exact triple_bind (triple_activate_holds none) fun _ =>
        triple_pure fun m h => ⟨fun _ => h, fun heq => by cases heq⟩
    | none =>
      exact triple_bind (triple_activate_holds (some _)) fun _ =>
        triple_pure fun m h => ⟨fun heq => by simp at heq, fun _ => ⟨hlisted, _, h, hrevision⟩⟩

theorem Machine.Holds.enforced {saved : CoreState} {active : Option Instance} {m : Machine S}
    {revision : Int} (h : m.Holds revision saved active)
    (hactive : ∀ current, active = some current →
      revision ≤ current.revision ∧ saved.appliedPolicy ≤ current.revision ∧
        saved.appliedConfig ≠ []) : m.Enforced revision := by
  obtain ⟨hsound, rfl, rfl⟩ := h
  exact ⟨⟨hsound, fun current hc => (hactive current hc).2⟩,
    fun current hc => (hactive current hc).1⟩

theorem Machine.Holds.enforced_none {saved : CoreState} {m : Machine S} {revision : Int}
    (h : m.Holds revision saved none) : m.Enforced revision :=
  h.enforced fun current hc => by cases hc

/-- A rollback leaves no instance, or one that runs the stored policy. -/
theorem triple_rollback {active : Option Instance} {previous : CoreState} (cause : Fault)
    (hsaved : saved.Consistent) (hfloor : saved.policyFloor = f)
    (hprevious : previous.appliedConfig = saved.appliedConfig) :
    Triple A (Machine.Holds (S := S) f saved active) (rollback sink previous cause)
      (fun _ => Machine.Enforced f) (Machine.Sound f) := by
  refine triple_bind triple_detach_holds fun old => ?_
  refine triple_extract (fun m h => ⟨h.2, trivial⟩) fun _ => ?_
  refine triple_bind (triple_closeInstance_holds sink old) fun _ => ?_
  by_cases hnil : previous.appliedConfig.length = 0
  · rw [if_pos hnil]
    refine triple_bind (triple_activate_holds none) fun _ => ?_
    refine triple_bind triple_abort_holds fun _ => ?_
    exact triple_pure fun m h => h.enforced_none
  · rw [if_neg hnil]
    refine triple_bind triple_coreState_holds fun latest => ?_
    cases latest with
    | error fault => exact triple_pure fun m h => h.1.enforced_none
    | ok latest =>
      refine triple_extract (fun m h => ⟨h.1, h.2 latest rfl⟩) fun hlatest => ?_
      subst hlatest
      simp only
      cases hmerge : mergeAuthorization previous.appliedConfig latest.authorization with
      | none => exact triple_pure fun m h => h.enforced_none
      | some safe =>
        refine triple_bind (triple_restore sink hsaved fun tree htree =>
          configLists_merged hmerge htree) fun fault => ?_
        cases fault with
        | some fault => exact triple_pure fun m h => (h.1 rfl).enforced_none
        | none =>
          refine triple_extract (P := fun m => ∃ current, m.Holds f latest (some current) ∧
            current.revision = latest.policyFloor) (fun m h => ⟨(h.2 rfl).2, (h.2 rfl).1⟩)
            fun hlists => triple_exists fun current => ?_
          refine triple_extract (fun m h => h) fun hrevision => ?_
          -- the restored instance runs the floor, whether or not it was committed
          refine triple_bind (triple_commit_holds _ (le_refl _) hlists) fun fault => ?_
          have hdone (m : Machine S) (new : CoreState) (h : m.Holds f new (some current))
              (hpolicy : new.appliedPolicy ≤ latest.policyFloor) (hconfig : new.appliedConfig ≠ []) :
              m.Enforced f := by
            refine h.enforced fun current' heq => ?_
            cases heq
            rw [hrevision, hfloor]
            exact ⟨le_refl _, hfloor ▸ hpolicy, hconfig⟩
          cases fault with
          | some fault =>
            refine triple_pure fun m h => hdone m latest h hsaved.applied_le ?_
            rw [← hprevious]
            exact fun heq => hnil (by rw [heq]; rfl)
          | none => exact triple_pure fun m h => hdone m _ h (le_refl _) hlists.ne_nil

/-- The exit before anything was prepared rolls back unless the running policy is current. -/
theorem triple_fail {active : Option Instance} {previous : CoreState} (cause : Fault)
    (hsaved : saved.Consistent) (hfloor : saved.policyFloor = f) (hserves : saved.Serves active)
    (hconfig : previous.appliedConfig = saved.appliedConfig)
    (hpolicy : previous.appliedPolicy = saved.appliedPolicy) :
    Triple A (Machine.Holds (S := S) f saved active) (fail sink previous f cause)
      (fun _ => Machine.Enforced f) (Machine.Sound f) := by
  refine triple_ite (fun _ => triple_rollback sink cause hsaved hfloor hconfig) fun hcurrent =>
    triple_pure fun m h => h.enforced fun current hc => ?_
  obtain ⟨hle, hne⟩ := hserves current hc
  rw [hconfig, hpolicy, not_and, not_lt] at hcurrent
  exact ⟨(hcurrent (List.length_pos_iff.2 hne)).trans hle, hle, hne⟩

/-- After the switch the candidate runs, or nothing does. -/
theorem triple_replaceWith {active : Option Instance} {candidate : Instance}
    (hlists : ConfigLists candidate.config saved.authorization) :
    Triple A (Machine.Holds (S := S) f saved active) (replaceWith sink candidate)
      (fun fault m => ∃ tracker, m.Holds f saved
        (fault.elim (some { candidate with tracker }) fun _ => none)) (Machine.Sound f) := by
  refine triple_bind triple_detach_holds fun old => ?_
  refine triple_extract (fun m h => ⟨h.2, trivial⟩) fun _ => ?_
  refine triple_bind (triple_closeInstance_holds sink old) fun _ => ?_
  refine triple_bind (triple_start_holds sink hlists) fun started => ?_
  obtain ⟨current, fault⟩ := started
  refine triple_extract (fun m h => h) fun htracker => ?_
  obtain ⟨tracker, rfl⟩ := htracker
  cases fault with
  | some fault =>
    exact triple_bind (triple_closeInstance_holds sink _) fun _ =>
      triple_pure fun m h => ⟨tracker, h⟩
  | none =>
    exact triple_bind (triple_activate_holds _) fun _ => triple_pure fun m h => ⟨tracker, h⟩

theorem triple_applyPrepared {active : Option Instance} {previous : CoreState}
    {config : Configuration} {candidate : Instance} (hsaved : saved.Consistent)
    (hfloor : saved.policyFloor = f) (hprevious : previous.appliedConfig = saved.appliedConfig)
    (hlists : ConfigLists config.json saved.authorization) (hrevision : config.policyRevision = f)
    (hcandidate : candidate.config = config.json) (hcurrent : candidate.revision = f) :
    Triple A (Machine.Holds (S := S) f saved active) (applyPrepared sink config previous candidate)
      (fun _ => Machine.Enforced f) (Machine.Sound f) := by
  refine triple_bind (triple_replaceWith sink (hcandidate ▸ hlists)) fun fault => ?_
  refine triple_exists fun tracker => ?_
  cases fault with
  | some fault => exact triple_rollback sink fault hsaved hfloor hprevious
  | none =>
    refine triple_bind (triple_commit_holds _ (by rw [hrevision, hfloor]) hlists) fun fault => ?_
    cases fault with
    | some fault => exact triple_rollback sink fault hsaved hfloor hprevious
    | none =>
      refine triple_bind triple_coreState_holds fun read => ?_
      refine triple_extract (fun m h => ⟨h.1, trivial⟩) fun _ => ?_
      have hdone (result : ApplyResult) : Triple A (fun m : Machine S => m.Holds f
          (saved.commit config.revisionID config.policyRevision config.json)
          (some { candidate with tracker })) (return result)
          (fun _ => Machine.Enforced f) (Machine.Sound f) :=
        triple_pure fun m h => h.enforced fun current hc => by
          cases hc
          exact ⟨hcurrent.ge, (hrevision.trans hcurrent.symm).le, hlists.ne_nil⟩
      cases read with
      | error fault => exact hdone _
      | ok latest => exact hdone _

/-- What the checks of `Apply` guarantee. -/
theorem checkConfiguration_eq_none {config : Configuration} {revision : Int} {auth : Bytes}
    (h : checkConfiguration config revision auth = none) :
    config.policyRevision = revision ∧ ConfigLists config.json auth := by
  unfold checkConfiguration at h
  split_ifs at h with h₁ h₂ h₃
  refine ⟨not_not.1 h₂, ?_⟩
  cases hmerge : mergeAuthorization config.json auth with
  | none => rw [hmerge] at h; cases h
  | some merged =>
    rw [hmerge] at h
    simp only at h
    cases horiginal : decodeConfig config.json with
    | none => rw [horiginal] at h; cases h
    | some original =>
      cases htree : decodeConfig merged with
      | none => rw [horiginal, htree] at h; cases h
      | some tree =>
        rw [horiginal, htree] at h
        simp only at h
        split_ifs at h with hsame
        exact configLists_of_unchanged hmerge horiginal htree (not_not.1 hsame)

theorem Machine.Holds.settled {active : Option Instance} {m : Machine S}
    (h : m.Holds f saved active) (hserves : saved.Serves active) : m.Settled f := by
  obtain ⟨hsound, rfl, rfl⟩ := h
  exact ⟨hsound, hserves⟩

theorem Machine.Settled.mono {g : Int} {m : Machine S} (h : m.Settled g) (hle : f ≤ g) :
    m.Settled f :=
  ⟨h.sound.mono hle, h.live⟩

/-- A call from a settled machine may name the row and the instance it starts from. -/
theorem triple_settled {α : Type} {x : AdapterM S α} {Q : α → Machine S → Prop}
    {C : Machine S → Prop}
    (h : ∀ saved active, saved.Consistent → f ≤ saved.policyFloor → saved.Serves active →
      Triple A (Machine.Holds f saved active) x Q C) :
    Triple A (Machine.Settled f) x Q C := by
  refine triple_view (fun m => readCore m.core) fun saved => ?_
  refine triple_view Machine.active fun active => ?_
  refine triple_extract (P := Machine.Holds f saved active)
    (p := saved.Consistent ∧ f ≤ saved.policyFloor ∧ saved.Serves active) (fun m hm => ?_)
    fun hp => h saved active hp.1 hp.2.1 hp.2.2
  obtain ⟨⟨hm, rfl⟩, rfl⟩ := hm
  exact ⟨⟨hm.sound, rfl, rfl⟩, hm.sound.consistent, hm.sound.floor_le, hm.live⟩

/-- A candidate that cannot be prepared is dropped, and the running instance stays. -/
theorem triple_applyBuilt {active : Option Instance} {previous : CoreState}
    {config : Configuration} {candidate : Instance} (hsaved : saved.Consistent)
    (hfloor : saved.policyFloor = f) (hserves : saved.Serves active)
    (hprevious : previous.appliedConfig = saved.appliedConfig)
    (hlists : ConfigLists config.json saved.authorization) (hrevision : config.policyRevision = f)
    (hcandidate : candidate.config = config.json) (hcurrent : candidate.revision = f) :
    Triple A (Machine.Holds (S := S) f saved active) (applyBuilt sink config previous candidate)
      (fun _ => Machine.Settled f) (Machine.Sound f) := by
  refine triple_bind (triple_prepare_holds _ _ _ _) fun fault => ?_
  cases fault with
  | some fault => exact triple_pure fun m h => h.settled hserves
  | none =>
    have hprepared : (saved.prepare config.taskID config.revisionID config.policyRevision
        config.json).Consistent := hsaved.of_fields rfl rfl rfl rfl
    exact (triple_applyPrepared sink hprepared hfloor hprevious hlists hrevision hcandidate
      hcurrent).mono (fun _ h => h) (fun _ _ h => h.toSettled) fun _ h => h

theorem triple_applyPersisted {active : Option Instance} {previous : CoreState}
    {config : Configuration} (hsaved : saved.Consistent) (hfloor : saved.policyFloor = f)
    (hserves : saved.Serves active) (hconfig : previous.appliedConfig = saved.appliedConfig)
    (hpolicy : previous.appliedPolicy = saved.appliedPolicy) :
    Triple A (Machine.Holds (S := S) f saved active)
      (applyPersisted sink config previous f saved.authorization)
      (fun _ => Machine.Settled f) (Machine.Sound f) := by
  have hfail (cause : Fault) : Triple A (Machine.Holds (S := S) f saved active)
      (fail sink previous f cause) (fun _ => Machine.Settled f) (Machine.Sound f) :=
    (triple_fail sink cause hsaved hfloor hserves hconfig hpolicy).mono (fun _ h => h)
      (fun _ _ h => h.toSettled) fun _ h => h
  unfold applyPersisted
  cases hcheck : checkConfiguration config f saved.authorization with
  | some cause => exact hfail cause
  | none =>
    obtain ⟨hrevision, hlists⟩ := checkConfiguration_eq_none hcheck
    refine triple_bind (R := fun _ => Machine.Holds f saved active) (triple_get fun _ h => h)
      fun m => ?_
    refine triple_ite (fun _ => triple_pure fun m h => h.settled hserves) fun _ => ?_
    refine triple_bind (triple_build_holds hsaved) fun candidate => ?_
    cases candidate with
    | none => exact triple_extract (fun m h => ⟨h.1, trivial⟩) fun _ => hfail .build
    | some candidate =>
      refine triple_extract (fun m h => ⟨h.1, h.2 candidate rfl⟩) fun hbuilt => ?_
      exact triple_applyBuilt sink hsaved hfloor hserves hconfig hlists hrevision hbuilt.1
        (hbuilt.2.1.trans hfloor)

theorem CoreState.Serves.of_fields {saved saved' : CoreState} {active : Option Instance}
    (h : saved.Serves active) (hpolicy : saved'.appliedPolicy = saved.appliedPolicy)
    (hconfig : saved'.appliedConfig = saved.appliedConfig) : saved'.Serves active := by
  intro current hc
  rw [hpolicy, hconfig]
  exact h current hc

theorem triple_apply (config : Configuration) :
    Triple A (Machine.Settled (S := S) f) (apply sink config) (fun _ => Machine.Settled f)
      (Machine.Sound f) := by
  refine triple_settled fun saved active hsaved hle hserves => ?_
  refine triple_bind triple_coreState_holds fun read => ?_
  cases read with
  | error fault => exact triple_pure fun m h => h.1.settled hserves
  | ok previous =>
    refine triple_extract (fun m h => ⟨h.1, h.2 previous rfl⟩) fun hread => ?_
    subst hread
    simp only
    cases hparse : parseAuthorization config.authorization with
    | none => exact triple_pure fun m h => h.settled hserves
    | some parsed =>
      obtain ⟨auth, revision, canonical⟩ := parsed
      refine triple_ite (fun _ => triple_pure fun m h => h.settled hserves) fun _ => ?_
      -- the new row is the old one with the persisted policy
      refine triple_bind (R := fun fault m => fault.elim
          (m.Holds revision (previous.persist revision canonical) active ∧ f ≤ revision ∧
            (previous.persist revision canonical).Consistent)
          fun _ => m.Holds f previous active) ?_ fun fault => ?_
      · refine triple_writeCore Machine.Holds.sound (fun m row h hw => ?_) (fun m e h _ => h)
          fun m o _ _ h => h
        obtain ⟨hsound, rfl, hactive⟩ := h
        obtain ⟨rfl, hmono, hconsistent⟩ := hsound.consistent.persist hparse hw
        exact ⟨⟨hsound.write hconsistent hmono, rfl, hactive⟩, hle.trans hmono, hconsistent⟩
      · cases fault with
        | some fault => exact triple_pure fun m h => h.settled hserves
        | none =>
          refine triple_extract (fun m h => h) fun hp => ?_
          exact (triple_applyPersisted sink hp.2 rfl (hserves.of_fields rfl rfl) rfl rfl).mono
            (fun _ h => h) (fun _ _ h => h.mono hp.1) fun _ h => h.mono hp.1

theorem triple_recoverWith {active : Option Instance} {safe : Bytes} (hsaved : saved.Consistent)
    (hserves : saved.Serves active) (hconfig : saved.appliedConfig ≠ [])
    (hlists : ∀ tree, decodeConfig safe = some tree → ConfigLists safe saved.authorization) :
    Triple A (Machine.Holds (S := S) f saved active) (recoverWith sink saved safe)
      (fun _ => Machine.Settled f) (Machine.Sound f) := by
  refine triple_bind (triple_build_holds hsaved) fun candidate => ?_
  cases candidate with
  | none => exact triple_pure fun m h => h.1.settled hserves
  | some candidate =>
    refine triple_extract (fun m h => ⟨h.1, h.2 candidate rfl⟩) fun hbuilt => ?_
    obtain ⟨rfl, hrevision, tree, htree⟩ := hbuilt
    have hlisted := hlists tree htree
    refine triple_bind (triple_start_holds sink hlisted) fun started => ?_
    obtain ⟨current, fault⟩ := started
    refine triple_extract (fun m h => h) fun htracker => ?_
    obtain ⟨tracker, rfl⟩ := htracker
    cases fault with
    | some fault =>
      exact triple_bind (triple_closeInstance_holds sink _) fun _ =>
        triple_pure fun m h => h.settled hserves
    | none =>
      refine triple_bind (triple_activate_holds _) fun _ => ?_
      have hserves' (new : CoreState) (hpolicy : new.appliedPolicy ≤ saved.policyFloor)
          (hnew : new.appliedConfig ≠ []) : new.Serves (some { candidate with tracker }) := by
        intro current hc
        cases hc
        exact ⟨hrevision ▸ hpolicy, hnew⟩
      refine triple_ite (fun _ => triple_pure fun m h =>
        h.settled (hserves' saved hsaved.applied_le hconfig)) fun _ => ?_
      refine (triple_commit_holds _ (le_refl _) hlisted).mono (fun _ h => h) (fun fault m h => ?_)
        fun _ h => h
      cases fault with
      | some fault => exact h.settled (hserves' saved hsaved.applied_le hconfig)
      | none => exact h.settled (hserves' _ (le_refl _) hlisted.ne_nil)

theorem triple_recover :
    Triple A (Machine.Settled (S := S) f) (recover sink) (fun _ => Machine.Settled f)
      (Machine.Sound f) := by
  refine triple_settled fun saved active hsaved hle hserves => ?_
  refine triple_bind triple_coreState_holds fun read => ?_
  cases read with
  | error fault => exact triple_pure fun m h => h.1.settled hserves
  | ok saved' =>
    refine triple_extract (fun m h => ⟨h.1, h.2 saved' rfl⟩) fun hread => ?_
    subst hread
    refine triple_ite (fun _ => ?_) fun hnil => ?_
    · refine triple_ite (fun _ => ?_) fun _ => triple_pure fun m h => h.settled hserves
      refine triple_abort_holds.mono (fun _ h => h) (fun fault m h => ?_) fun _ h => h
      cases fault with
      | some fault => exact h.settled hserves
      | none => exact h.settled (hserves.of_fields rfl rfl)
    · have hconfig : saved'.appliedConfig ≠ [] := fun heq => hnil (by rw [heq]; rfl)
      refine triple_ite (fun _ => ?_) fun hcurrent => ?_
      · cases hmerge : mergeAuthorization saved'.appliedConfig saved'.authorization with
        | none => exact triple_pure fun m h => h.settled hserves
        | some safe =>
          exact triple_recoverWith sink hsaved hserves hconfig fun tree htree =>
            configLists_merged hmerge htree
      · -- at the floor the applied configuration lists the stored users
        rw [not_or, not_not] at hcurrent
        exact triple_recoverWith sink hsaved hserves hconfig fun _ _ =>
          hsaved.lists hconfig hcurrent.1

theorem triple_close :
    Triple A (Machine.Settled (S := S) f) (close sink) (fun _ => Machine.Settled f)
      (Machine.Sound f) := by
  refine triple_settled fun saved active hsaved hle hserves => ?_
  refine triple_bind triple_detach_holds fun old => ?_
  refine triple_extract (fun m h => ⟨h.2, trivial⟩) fun _ => ?_
  refine triple_bind (triple_closeInstance_holds sink old) fun err => ?_
  refine triple_bind (triple_activate_holds none) fun _ => ?_
  refine triple_bind (retryFinal_frame sink Machine.Holds.framed Machine.Holds.sound) fun fault => ?_
  have hdone (result : Option Fault) : Triple A (Machine.Holds (S := S) f saved none)
      (return result) (fun _ => Machine.Settled f) (Machine.Sound f) :=
    triple_pure fun m h => h.enforced_none.toSettled
  cases fault with
  | some fault => exact hdone _
  | none =>
    rcases err with _ | err
    · exact hdone _
    · cases err <;> exact hdone _

end Calls

/-! ## Runs -/

section Runs

variable (sink : Option (S → List Counter → Except StoreError S)) {f : Int}

theorem Machine.Sound.restart {m : Machine S} (h : m.Sound f) : m.restart.Settled f :=
  ⟨⟨h.1, h.2, h.3, h.4, h.5, h.6, h.7⟩, fun current hc => by cases hc⟩

/-- A call leaves a settled machine, whether it returned or was killed. -/
theorem settled_after {α : Type} {x : AdapterM S α}
    (h : Triple (fun _ => True) (Machine.Settled (S := S) f) x (fun _ => Machine.Settled f)
      (Machine.Sound f)) {m : Machine S} (hm : m.Settled f) (answers : List Answer) :
    (Machine.after (x.run m answers)).Settled f := by
  have hx := h m answers (fun _ _ => trivial) hm
  unfold Prog.run
  generalize x m answers = r at hx
  obtain ⟨m', _ | ⟨a, rest⟩⟩ := r
  · exact hx.restart
  · exact hx.1

theorem settled_step (e : AdapterEvent) {m : Machine S} (h : m.Settled f) :
    (m.step sink e).Settled f := by
  cases e with
  | apply config answers => exact settled_after (triple_apply sink config) h answers
  | recover answers => exact settled_after (triple_recover sink) h answers
  | close answers => exact settled_after (triple_close sink) h answers
  | restart => exact h.sound.restart

theorem settled_runFrom (events : List AdapterEvent) {m : Machine S} (h : m.Settled f) :
    (m.runFrom sink events).Settled f := by
  induction events generalizing m with
  | nil => exact h
  | cons e events ih => exact ih (settled_step sink e h)

theorem settled_init (usage : S) : (Machine.init usage).Settled 0 where
  sound :=
    { consistent := CoreState.consistent_empty
      floor_le := le_refl _
      last := rfl
      sorted := List.Pairwise.nil
      le_floor := fun saved h => by cases h
      stored := fun saved h => by cases h
      started := fun s h => by cases h }
  live := fun current hc => by cases hc

/-- In every run, the policy floors stored one after the other never fall and bound the applied
policy, a configuration applied at the floor lists exactly the authorized users, and whatever was
started lists exactly the users authorized at that moment. -/
theorem policy_floor_safe (usage : S) (events : List AdapterEvent) :
    let m := (Machine.init usage).runFrom sink events
    m.core = m.stored.getLast? ∧ (m.stored.map (·.policyFloor)).Pairwise (· ≤ ·) ∧
    (∀ saved ∈ m.stored, saved.appliedPolicy ≤ saved.policyFloor ∧
      (saved.appliedConfig ≠ [] → saved.appliedPolicy = saved.policyFloor →
        ConfigLists saved.appliedConfig saved.authorization)) ∧
    ∀ s ∈ m.started, ConfigLists s.current.config s.stored := by
  intro m
  have h : m.Sound 0 := (settled_runFrom sink events (settled_init usage)).sound
  exact ⟨h.last, h.sorted, fun saved hsaved =>
    ⟨(h.stored saved hsaved).applied_le, (h.stored saved hsaved).lists⟩, h.started⟩

end Runs

end Bifurcation.Daemon
