import Bifurcation.Daemon.PolicySafety

/-!
# Acceptable configurations

What `Apply` asks of a configuration task, and the smallest tasks that meet it: the two managed
inbounds with the users of the authorization that comes with them.
-/

namespace Bifurcation.Daemon

/-- A task that passes every check of `Apply` and of `build`, with its own authorization in
canonical form. -/
structure Acceptable (config : Configuration) (users : List String) : Prop where
  parsed : ∃ auth, parseAuthorization config.authorization =
    some (auth, config.policyRevision, config.authorization)
  latest : config.latestPolicyRevision = config.policyRevision
  checked : checkConfiguration config config.policyRevision config.authorization = none
  built : builtFrom config.json config.authorization = some (users, config.policyRevision)

/-- The managed inbounds alone, with the users of an authorization. -/
def managedTree (auth : Authorization) : List (String × Json) :=
  let inbound := fun (tag protocol : String) =>
    Json.obj [("tag", .str tag), ("type", .str protocol), ("users", managedUsers auth protocol)]
  [("inbounds", .arr [inbound "bifurcation-trojan" "trojan",
    inbound "bifurcation-hysteria2" "hysteria2"])]

/-- The task of applying the managed inbounds under a policy. -/
def managedTask (task : String) (revision : Int) (users : List AuthorizedUser) : Configuration :=
  let auth : Authorization := ⟨1, toString revision, some users⟩
  { taskID := task, revisionID := task, policyRevision := revision, latestPolicyRevision := revision
    json := Json.print (.obj (managedTree auth))
    sha256 := sha256 (Json.print (.obj (managedTree auth)))
    authorization := Json.print auth.json }

theorem configTree_managedTree (auth : Authorization) : ConfigTree (managedTree auth) := by
  have hnames : ["tag", "type", "users"].Pairwise (· < ·) := by decide
  have hsorted (a b c : Json) : Json.Sorted [("tag", a), ("type", b), ("users", c)] := hnames
  have htrojan := configJson_managedUsers auth "trojan"
  have hhysteria2 := configJson_managedUsers auth "hysteria2"
  refine ⟨List.pairwise_singleton _ _, ?_, ?_, ?_⟩
  · simp only [managedTree, Json.NormalMembers, Json.NormalMember, Json.Normal, Json.NormalItems,
      htrojan.1, hhysteria2.1, hsorted, and_self]
  · simp only [managedTree, Json.WFMembers, Json.WFMember, Json.WF, Json.WFItems, htrojan.2,
      hhysteria2.2, and_self]
  · have htrojan' := depth_managedUsers auth "trojan"
    have hhysteria2' := depth_managedUsers auth "hysteria2"
    simp only [managedTree, Json.depthMembers, Json.depthMember, Json.depth, Json.depthItems]
    unfold Json.maxNesting
    omega

/-- Merging a managed tree with another authorization gives the tree of that authorization. -/
theorem mergeTree_managedTree (auth later : Authorization) :
    mergeTree later (managedTree auth) = some (managedTree later) := by
  have htags : "bifurcation-hysteria2" ≠ "bifurcation-trojan" := by decide
  have hset (a b c d : Json) : Json.setMember "users" d [("tag", a), ("type", b), ("users", c)] =
      [("tag", a), ("type", b), ("users", d)] := by
    have h₁ : ¬ "users" < "tag" := by decide
    have h₂ : ¬ "users" < "type" := by decide
    have h₃ : ¬ "users" < "users" := by decide
    have h₄ : "users" ≠ "tag" := by decide
    have h₅ : "users" ≠ "type" := by decide
    simp only [Json.setMember, h₁, h₂, h₃, h₄, h₅, if_false, if_true]
  have hinbounds (a b : Json) :
      Json.setMember "inbounds" b [("inbounds", a)] = [("inbounds", b)] := by
    have h : ¬ "inbounds" < "inbounds" := by decide
    simp only [Json.setMember, h, if_false, if_true]
  simp [managedTree, mergeTree, mergeInbounds, managedProtocol, Json.lookup, textOf, isText, htags,
    hset, hinbounds]

/-- What makes a managed task acceptable: valid users, a revision that is read back, and a
configuration that is not too long. -/
structure Manageable (task : String) (revision : Int) (users : List AuthorizedUser) : Prop where
  read : parseInt64 (toString revision) = some revision
  positive : 1 ≤ revision
  valid : validUsers [] users = true
  short : (managedTask task revision users).json.length ≤ 4 * 2 ^ 20

section Managed

variable {task later : String} {revision revision' : Int} {users users' : List AuthorizedUser}

theorem Manageable.parse (h : Manageable task revision users) :
    parseAuthorization (managedTask task revision users).authorization =
      some (⟨1, toString revision, some users⟩, revision,
        (managedTask task revision users).authorization) :=
  parseAuthorization_print h.read h.positive rfl h.valid

theorem Manageable.decode (h : Manageable task revision users) :
    decodeConfig (managedTask task revision users).json =
      some (managedTree ⟨1, toString revision, some users⟩) :=
  decodeConfig_of_print (configTree_managedTree _) h.short

/-- The configuration of one task with the users of another is the configuration of the other. -/
theorem Manageable.merge (h : Manageable task revision users)
    (h' : Manageable later revision' users') :
    mergeAuthorization (managedTask task revision users).json
      (managedTask later revision' users').authorization =
        some (managedTask later revision' users').json := by
  simp only [mergeAuthorization, h'.parse, h.decode, Option.bind_eq_bind, Option.bind_some,
    mergeTree_managedTree]
  rfl

/-- A managed task over valid users is acceptable. -/
theorem Manageable.acceptable (h : Manageable task revision users) :
    Acceptable (managedTask task revision users) (users.map (·.id)) := by
  have hparse := h.parse
  have hdecode := h.decode
  have hmerge := h.merge h
  refine ⟨⟨_, hparse⟩, rfl, ?_, ?_⟩
  · have hrevision : (managedTask task revision users).policyRevision = revision := rfl
    have hdigest : sha256 (managedTask task revision users).json =
        (managedTask task revision users).sha256 := rfl
    simp [checkConfiguration, hdigest, hmerge, hdecode]
  · have hrevision : (managedTask task revision users).policyRevision = revision := rfl
    simp only [builtFrom, hparse, hdecode, hrevision, Option.bind_eq_bind, Option.bind_some]
    simp [managedTree, Json.lookup, Authorization.list]

end Managed

/-! ## Applying the first task -/

/-- An environment where everything works. -/
def works : Answer := ⟨true, true, 1, "n", fun _ => 0, fun _ => 0⟩

/-- The same, with a database that does not answer. -/
def lost : Answer := { works with stored := false }

/-- A persistence callback that accepts every sample. -/
def accepting : Option (Unit → List Counter → Except StoreError Unit) := some fun s _ => .ok s

/-- The row after a configuration is applied. -/
def appliedRow (config : Configuration) : CoreState :=
  { policyFloor := config.policyRevision, authorization := config.authorization
    appliedRevision := config.revisionID, appliedPolicy := config.policyRevision
    appliedConfig := config.json }

/-- The instance that runs an applied task. -/
def runningInstance (config : Configuration) (users : List String) : Instance :=
  { runtimeID := "embedded-n", users, tracker := some (newTracker users "embedded-n" 1)
    config := config.json, authorization := config.authorization
    revision := config.policyRevision }

/-- The store takes a task while the row is idle: its policy is stored, and it is prepared. -/
theorem taken_of_idle {config : Configuration} {stored : CoreRow} {row : CoreState}
    (hrow : readCore stored = row) (hidle : row.stage = .idle) (hle : 0 ≤ row.policyFloor)
    (hlt : row.policyFloor < config.policyRevision) :
    persistPolicy config.policyRevision config.authorization stored =
      .ok (some (row.persist config.policyRevision config.authorization)) ∧
    prepareCore config.taskID config.revisionID config.policyRevision config.json
      (some (row.persist config.policyRevision config.authorization)) =
      .ok (some ((row.persist config.policyRevision config.authorization).prepare
        config.taskID config.revisionID config.policyRevision config.json)) := by
  subst hrow
  exact ⟨persistPolicy_of_lt hlt (by omega), prepareCore_of_idle hidle (le_refl _) (by omega)⟩

/-- The first task in a working environment is applied. -/
theorem apply_first {config : Configuration} {users : List String} (h : Acceptable config users)
    (hle : 1 ≤ config.policyRevision) :
    ∃ stored started result,
      (apply accepting config).run (Machine.init ()) (List.replicate 12 works) =
        ({ core := some (appliedRow config), usage := (), pendingFinal := [], stored, started
           active := some (runningInstance config users) }, some result) := by
  obtain ⟨⟨auth, hparse⟩, hlatest, hcheck, hbuilt⟩ := h
  obtain ⟨hpersist, hprepare⟩ := @taken_of_idle config none {} rfl rfl le_rfl
    (show (0 : Int) < config.policyRevision by omega)
  have hcommit (saved : CoreState) : commitCore config.revisionID config.policyRevision
      config.json (some saved) =
      .ok (some (saved.commit config.revisionID config.policyRevision config.json)) :=
    commitCore_some (by omega) saved
  -- with no users there is no baseline to persist
  by_cases hnone : (newTracker users "embedded-n" 1).userIDs = [] <;>
    simp [Machine.init, Machine.write, Prog.run, works, accepting, hparse, hlatest, hcheck,
      hbuilt, hpersist, hprepare, hcommit, apply, coreState, readCore, writeCore,
      applyPersisted, unchanged, build, applyBuilt, applyPrepared, replaceWith, detach,
      closeInstance, start, retryFinal, retryFinalFrom, persistAny, persist, activate,
      List.length_pos_iff, Tracker.counters, hnone]
  all_goals exact ⟨rfl, rfl⟩

/-- A first policy with one user, and a second one that revokes it. -/
def firstTask : Configuration := managedTask "task-1" 1 [⟨"u", "p", "q"⟩]

def secondTask : Configuration := managedTask "task-2" 2 []

theorem firstTask_manageable : Manageable "task-1" 1 [⟨"u", "p", "q"⟩] where
  read := by decide +kernel
  positive := by decide
  valid := by decide +kernel
  short := by decide +kernel

theorem secondTask_manageable : Manageable "task-2" 2 [] where
  read := by decide +kernel
  positive := by decide
  valid := by decide +kernel
  short := by decide +kernel

theorem firstTask_acceptable : Acceptable firstTask ["u"] := firstTask_manageable.acceptable

theorem secondTask_acceptable : Acceptable secondTask [] := secondTask_manageable.acceptable

end Bifurcation.Daemon
