import Bifurcation.Panel.ConfigurationRuns

/-!
# Reconciliation

A reconciliation leaves no machine behind: after it every enrolled machine that applies
configurations and has settings desires the current policy, and a task of its binding epoch says
so. A machine whose transaction throws would be left for later, so the theorem shows that none
throws: the settings of a machine are those of its last revision, which were read before; the
next version is free; and no task has the request key, or the machine would desire the policy
already. What it needs of the draws is that they are new.

Main result: `reconcile_complete`.
-/

namespace Bifurcation.Panel

open Javascript

variable {N : Type} {js : Runtime N} {codec : Codec} {vault : ConfigVault N}
  {log : List Refreshed} {db db' : Database}

/-- What the reconciliation to a policy draws for machines is new, and its targets are small. -/
structure FreshDraws (codec : Codec) (draws : String → Draws N) (policyRevision : Int)
    (db : Database) : Prop where
  revisions : ∀ id, db.configRevisions.get? (draws id).id = none
  tasks : ∀ id, db.tasks.get? (draws id).taskId = none
  distinct : ∀ id id', id ≠ id' →
    (draws id).id ≠ (draws id').id ∧ (draws id).taskId ≠ (draws id').taskId
  size : ∀ id, (db.machineConfigs.get? id).isSome = true →
    (codec.taskSpecToBinary (.applyConfig (draws id).id policyRevision)).length ≤ 1024 * 1024

/-- A machine that a reconciliation does not pass over. -/
structure Eligible (db : Database) (machineId : String) (machine : MachineRow) : Prop where
  registered : Registered db machineId machine
  installed : machine.installationId ≠ none
  supported : machine.supportedTasks.contains TaskKind.applyConfig.number = true
  alive : isUninstalled db machineId machine.bindingEpoch = false
  settings : (configRow machineId db).settingsCiphertext ≠ none

/-! ## One machine -/

/-- The next version of a machine is free. -/
theorem versionTaken_eq_false (h : ConfigInv js codec vault log db) (machineId : String) :
    versionTaken db machineId ((configRow machineId db).version + 1) = false := by
  rw [versionTaken, List.any_eq_false]
  intro x hx htaken
  rw [Bool.and_eq_true, decide_eq_true_eq, decide_eq_true_eq] at htaken
  have hmem : x ∈ revisionsOf machineId db :=
    List.mem_filter.2 ⟨hx, decide_eq_true htaken.1⟩
  obtain ⟨i, hi⟩ := List.mem_iff_getElem?.1 hmem
  have hversion := (h.publications machineId).versions i x hi
  have hlt : i < (revisionsOf machineId db).length := (List.getElem?_eq_some_iff.1 hi).1
  rw [htaken.2, (h.publications machineId).version] at hversion
  omega

/-- The settings of a machine can be read: its last revision was rendered from them. -/
theorem settingsOf_ne_none (h : ConfigInv js codec vault log db) {machineId ciphertext : String}
    (hsettings : (configRow machineId db).settingsCiphertext = some ciphertext) :
    ∃ settings, vault.settingsOf ciphertext = some settings := by
  rw [(h.publications machineId).settings] at hsettings
  obtain ⟨x, hx, rfl⟩ := Option.map_eq_some_iff.1 hsettings
  have hmem := List.mem_of_mem_filter (List.mem_of_getLast? hx)
  obtain ⟨record, -, hpublished⟩ := h.revisions x hmem
  obtain ⟨settings, hopened, -⟩ := hpublished.rendered.text
  exact ⟨settings, hopened⟩

theorem checkMaintenance_applyConfig (machine : MachineRow) (supported : Bool) :
    checkMaintenance machine .applyConfig supported = .ok () := by
  rw [checkMaintenance, if_neg (by decide)]

/-- A target that is enqueued under a new key. -/
theorem enqueueTask_of_new {machineId revisionId requestKey taskId : String}
    {policyRevision now : Int} {machine : MachineRow} (hmachine : Registered db machineId machine)
    (hsize : (codec.taskSpecToBinary (.applyConfig revisionId policyRevision)).length ≤ 1024 * 1024)
    (hkey : ∀ x ∈ db.tasks.rows, ¬ (x.2.machineId = machineId ∧ x.2.requestKey = requestKey))
    (halive : isUninstalled db machineId machine.bindingEpoch = false)
    (hinstalled : machine.installationId ≠ none)
    (hsupported : machine.supportedTasks.contains TaskKind.applyConfig.number = true)
    (htask : db.tasks.get? taskId = none) :
    enqueueTask codec machineId (.applyConfig revisionId policyRevision) requestKey taskId now db =
      .ok (taskId, enqueued machineId machine .applyConfig taskId (newTask machineId
        machine.bindingEpoch .applyConfig (codec.taskSpecToBinary
          (.applyConfig revisionId policyRevision)) requestKey now) now db) := by
  have hget : get db machineId = .ok machine := get_eq_ok.2 hmachine
  have hfind : db.tasks.rows.find? (fun x => x.2.machineId = machineId &&
      x.2.requestKey = requestKey) = none := by
    rw [List.find?_eq_none]
    intro x hx hboth
    rw [Bool.and_eq_true, decide_eq_true_eq, decide_eq_true_eq] at hboth
    exact hkey x hx hboth
  have hable : enqueueable db machineId machine .applyConfig = .ok () := by
    simp only [enqueueable, halive, hinstalled, hsupported, checkMaintenance_applyConfig, failIf,
      ok_bind, Bool.false_eq_true, if_false, reduceCtorEq]
  have hnone : (supersede machineId machine.bindingEpoch now db.tasks).get? taskId = none :=
    get?_superseded_eq_none htask
  have hinsert : ∀ task, (supersede machineId machine.bindingEpoch now db.tasks).insert? taskId
      task = some ((supersede machineId machine.bindingEpoch now db.tasks).set taskId task) :=
    fun _ => Table.insert?_eq_some.2 ⟨hnone, rfl⟩
  simp only [enqueueTask, hget, ok_bind, TaskSpec.kind, found, hfind, hable, failIf,
    not_lt.2 hsize, if_false, if_true, hinsert]
  rfl

/-- **The transaction of an eligible machine does not throw.** -/
theorem reconcileMachine_of_eligible {draws : Draws N} {now : Int}
    {authorization : AuthorizationLayer} {machineId : String} {machine : MachineRow}
    {revision : Int} (h : ConfigInv js codec vault log db)
    (heligible : Eligible db machineId machine)
    (hrow : db.machineConfigs.get? machineId = some (configRow machineId db))
    (hlater : (configRow machineId db).desiredPolicyRevision < revision)
    (htext : authorization.policyRevision = integerText revision)
    (hfresh : db.configRevisions.get? draws.id = none)
    (htask : db.tasks.get? draws.taskId = none)
    (hsize : (codec.taskSpecToBinary (.applyConfig draws.id revision)).length ≤ 1024 * 1024) :
    ∃ db', reconcileMachine js codec vault draws now authorization machineId machine db =
      .ok (true, db') := by
  obtain ⟨ciphertext, hsettings⟩ := Option.ne_none_iff_exists'.1 heligible.settings
  obtain ⟨settings, hopened⟩ := settingsOf_ne_none h hsettings
  have hnumber : policyNumber authorization = revision := policyNumber_of_text htext
  have hnotaken := versionTaken_eq_false h machineId
  have hkey : ∀ x ∈ db.tasks.rows, ¬ (x.2.machineId = machineId ∧
      x.2.requestKey = policyKey machineId machine.bindingEpoch
        (textOf authorization.policyRevision)) := by
    rintro x hx ⟨rfl, hkey⟩
    rw [htext, textOf_integerText] at hkey
    have hkeyed := h.targets.keys x hx machine.bindingEpoch revision hkey
    exact absurd hlater (not_lt.2 (hkeyed.desired machine heligible.registered.1 rfl))
  have hinsert : ∀ row, db.configRevisions.insert? draws.id row =
      some (db.configRevisions.set draws.id row) := fun _ =>
    Table.insert?_eq_some.2 ⟨hfresh, rfl⟩
  -- The publication leaves machines and tasks, so the target is enqueued as in `db`.
  have henqueue : ∀ db₂ : Database, db₂.machines = db.machines → db₂.tasks = db.tasks →
      ∃ db', enqueueTask codec machineId (.applyConfig draws.id (policyNumber authorization))
        (policyKey machineId machine.bindingEpoch (textOf authorization.policyRevision))
        draws.taskId now db₂ = .ok (draws.taskId, db') := by
    intro db₂ hmachines htasks
    refine ⟨_, enqueueTask_of_new ?_ (by rw [hnumber]; exact hsize) (by rw [htasks]; exact hkey) ?_
      heligible.installed heligible.supported (by rw [htasks]; exact htask)⟩
    · rw [Registered, hmachines]
      exact heligible.registered
    · rw [isUninstalled, htasks]
      exact heligible.alive
  obtain ⟨db', henqueued⟩ := henqueue (publication machineId draws.id
    (reconciledRevision js draws now machineId ((configRow machineId db).version + 1) ciphertext
      settings authorization)
    { configRow machineId db with
      version := (configRow machineId db).version + 1
      desiredRevisionId := some draws.id
      desiredPolicyRevision := policyNumber authorization } authorization db) rfl rfl
  refine ⟨db', ?_⟩
  simp only [reconcileMachine, hrow, found, ok_bind, hsettings, hnumber, not_le.2 hlater,
    ge_iff_le, if_false, hopened, insertRevision, hnotaken, failIf, Bool.false_eq_true, hinsert]
  rw [hnumber] at henqueued
  have hdone := congrArg (fun r : Except PanelError (String × Database) =>
    r >>= fun r => (pure (true, r.2) : Except PanelError (Bool × Database))) henqueued
  simp only [publication, reconciledRevision, hnumber, hsettings] at hdone
  exact hdone

/-! ## The loop -/

/-- A machine desires no policy later than the latest. -/
theorem desired_le (h : ConfigInv js codec vault log db) {revision : Int} (hzero : 0 ≤ revision)
    (hlatest : ∀ r ∈ log, r.revision ≤ revision) (machineId : String) :
    (configRow machineId db).desiredPolicyRevision ≤ revision := by
  rcases (h.publications machineId).policy with hnone | hlast
  · rwa [hnone]
  · obtain ⟨x, hx, hpolicy⟩ := Option.map_eq_some_iff.1 hlast.symm
    have hmem := List.mem_of_mem_filter (List.mem_of_getLast? hx)
    obtain ⟨record, hrecord, hpublished⟩ := h.revisions x hmem
    rw [← hpolicy]
    exact (le_of_eq hpublished.rendered.policy).trans (hlatest record hrecord)

theorem isUninstalled_targeted {machineId revisionId taskId requestKey : String}
    {machine : MachineRow} {revision : RevisionRow} {authorization : AuthorizationLayer}
    {now : Int} (hnone : db.tasks.get? taskId = none) (id : String) (bindingEpoch : Int) :
    isUninstalled (targeted codec machineId revisionId taskId requestKey machine revision
      authorization now db) id bindingEpoch = isUninstalled db id bindingEpoch := by
  have hnone' : (supersede machineId machine.bindingEpoch now db.tasks).get? taskId = none :=
    get?_superseded_eq_none hnone
  have hrows : (targeted codec machineId revisionId taskId requestKey machine revision
      authorization now db).tasks.rows =
      (supersede machineId machine.bindingEpoch now db.tasks).rows ++ [(taskId,
        newTask machineId machine.bindingEpoch .applyConfig
          (codec.taskSpecToBinary (.applyConfig revisionId revision.policyRevision)) requestKey
          now)] := Table.rows_set_of_get?_eq_none hnone' _
  rw [isUninstalled, hrows, List.any_append, isUninstalled]
  have hnew : (newTask machineId machine.bindingEpoch .applyConfig
      (codec.taskSpecToBinary (.applyConfig revisionId revision.policyRevision)) requestKey
      now).kind ≠ .uninstall := by simp [newTask]
  simp only [List.any_cons, List.any_nil, hnew, decide_false, Bool.and_false, Bool.false_and,
    Bool.or_false]
  -- What is superseded is no uninstall, before and after.
  rw [supersede, Table.updateWhere, List.any_map]
  congr 1
  funext x
  rw [Function.comp_apply]
  dsimp only
  split_ifs with hcoalesced
  · have hkind : x.2.kind = .applyConfig := by
      simp only [coalesced, Bool.and_eq_true, decide_eq_true_eq] at hcoalesced
      exact hcoalesced.1.2
    simp [hkind]
  · rfl

section Loop

variable {draws : String → Draws N} {now : Int} {authorization : AuthorizationLayer}
  {record : Refreshed} {db₁ : Database} {done rest : List (String × ConfigRow × MachineRow)}

/-- Between two machines of the loop. -/
structure Progress (js : Runtime N) (codec : Codec) (vault : ConfigVault N) (log : List Refreshed)
    (draws : String → Draws N) (db₁ : Database) (revision : Int)
    (done rest : List (String × ConfigRow × MachineRow)) (db : Database) : Prop where
  inv : ConfigInv js codec vault log db
  machines : db.machines = db₁.machines
  alive : ∀ id epoch, isUninstalled db id epoch = isUninstalled db₁ id epoch
  rows : ∀ x ∈ rest, db.machineConfigs.get? x.1 = some x.2.1
  fresh : ∀ x ∈ rest, db.configRevisions.get? (draws x.1).id = none ∧
    db.tasks.get? (draws x.1).taskId = none
  finished : ∀ x ∈ done, Eligible db₁ x.1 x.2.2 →
    (configRow x.1 db).desiredPolicyRevision = revision

theorem Progress.configRow_eq {revision : Int} {x : String × ConfigRow × MachineRow}
    (h : Progress js codec vault log draws db₁ revision done rest db) (hx : x ∈ rest) :
    configRow x.1 db = x.2.1 := by
  rw [configRow, h.rows x hx, Option.getD_some]

/-- A machine that is passed over. -/
theorem Progress.pass {revision : Int} {x : String × ConfigRow × MachineRow}
    (h : Progress js codec vault log draws db₁ revision done (x :: rest) db)
    (hx : Eligible db₁ x.1 x.2.2 → (configRow x.1 db).desiredPolicyRevision = revision) :
    Progress js codec vault log draws db₁ revision (done ++ [x]) rest db where
  inv := h.inv
  machines := h.machines
  alive := h.alive
  rows := fun y hy => h.rows y (.tail _ hy)
  fresh := fun y hy => h.fresh y (.tail _ hy)
  finished := fun y hy hel => by
    rcases List.mem_append.1 hy with hy | hy
    · exact h.finished y hy hel
    · rw [List.mem_singleton.1 hy] at hel ⊢
      exact hx hel

/-- A machine that is published anew. -/
theorem Progress.publish {x : String × ConfigRow × MachineRow} {revision : RevisionRow}
    {requestKey : String}
    (h : Progress js codec vault log draws db₁ record.revision done (x :: rest) db)
    (hdistinct : ∀ id id', id ≠ id' →
      (draws id).id ≠ (draws id').id ∧ (draws id).taskId ≠ (draws id').taskId)
    (hnodup : ((done ++ x :: rest).map Prod.fst).Nodup)
    (hnext : NextTarget js vault log x.1 (draws x.1).id (draws x.1).taskId requestKey x.2.2
      revision authorization db)
    (hpolicy : revision.policyRevision = record.revision) :
    Progress js codec vault log draws db₁ record.revision (done ++ [x]) rest
      (targeted codec x.1 (draws x.1).id (draws x.1).taskId requestKey x.2.2 revision
        authorization now db) := by
  have hrow := @configRow_targeted codec db x.1 (draws x.1).id (draws x.1).taskId requestKey x.2.2
    revision authorization now
  rw [List.map_append, List.nodup_append] at hnodup
  obtain ⟨-, hrest, hdone⟩ := hnodup
  rw [List.map_cons, List.nodup_cons] at hrest
  have hne : ∀ y ∈ rest, y.1 ≠ x.1 := fun y hy heq =>
    hrest.1 (heq ▸ List.mem_map_of_mem hy)
  refine ⟨h.inv.targeted hnext, h.machines, fun id epoch => ?_, fun y hy => ?_, fun y hy => ?_,
    fun y hy hel => ?_⟩
  · rw [isUninstalled_targeted hnext.task]
    exact h.alive id epoch
  · exact (Table.get?_set_of_ne _ _ (hne y hy)).trans (h.rows y (.tail _ hy))
  · obtain ⟨hrevision, htask⟩ := h.fresh y (.tail _ hy)
    obtain ⟨hid, htaskId⟩ := hdistinct y.1 x.1 (hne y hy)
    refine ⟨(Table.get?_set_of_ne _ _ hid).trans hrevision, ?_⟩
    refine (Table.get?_set_of_ne _ _ htaskId).trans ?_
    rw [if_pos rfl]
    exact get?_superseded_eq_none htask
  · rw [hrow]
    rcases List.mem_append.1 hy with hy | hy
    · rw [if_neg]
      · exact h.finished y hy hel
      · exact fun heq => hdone y.1 (List.mem_map_of_mem hy) x.1 (.head _) heq
    · rw [List.mem_singleton.1 hy, if_pos rfl]
      exact hpolicy

/-- What an eligible machine is in the state of the loop. -/
theorem Progress.eligible {revision : Int} {x : String × ConfigRow × MachineRow}
    (h : Progress js codec vault log draws db₁ revision done (x :: rest) db)
    (hrow : db₁.machineConfigs.get? x.1 = some x.2.1) (hel : Eligible db₁ x.1 x.2.2) :
    Eligible db x.1 x.2.2 where
  registered := by
    rw [Registered, h.machines]
    exact hel.registered
  installed := hel.installed
  supported := hel.supported
  alive := by rw [h.alive, hel.alive]
  settings := by
    have hsettings := hel.settings
    rw [configRow, hrow, Option.getD_some] at hsettings
    rwa [h.configRow_eq (.head _)]

theorem reconcileStep_of_eligible {x : String × ConfigRow × MachineRow} (changed : List String)
    (hel : Eligible db x.1 x.2.2) (hrow : configRow x.1 db = x.2.1)
    (hlater : x.2.1.desiredPolicyRevision < policyNumber authorization)
    (hmachine : reconcileMachine js codec vault (draws x.1) now authorization x.1 x.2.2 db =
      .ok (true, db')) :
    reconcileStep js codec vault draws now authorization (changed, db) x =
      (changed ++ [x.1], db') := by
  have hsettings := hel.settings
  rw [hrow] at hsettings
  simp only [reconcileStep, hel.alive, hsettings, not_le.2 hlater, hel.supported, hel.installed,
    Bool.false_eq_true, or_self, if_false, Bool.true_eq_false, hmachine]

/-- **One machine**: it is published anew, or needs nothing. -/
theorem Progress.step {x : String × ConfigRow × MachineRow} {changed : List String}
    (h : Progress js codec vault log draws db₁ record.revision done (x :: rest) db)
    (hfresh : FreshDraws codec draws record.revision db₁)
    (hopens : ∀ id text, vault.renderedOf ((draws id).rendered text) = some text)
    (hrecord : record ∈ log) (hauthorization : record.authorization = authorization)
    (htext : authorization.policyRevision = integerText record.revision)
    (hzero : 0 ≤ record.revision) (hlatest : ∀ r ∈ log, r.revision ≤ record.revision)
    (hnodup : ((done ++ x :: rest).map Prod.fst).Nodup) (hx : x ∈ configured db₁) :
    Progress js codec vault log draws db₁ record.revision (done ++ [x]) rest
      (reconcileStep js codec vault draws now authorization (changed, db) x).2 := by
  have hnumber : policyNumber authorization = record.revision := policyNumber_of_text htext
  obtain ⟨hrow, hregistered⟩ := mem_configured.1 hx
  have hmachine : db.machines.get? x.1 = some x.2.2 := by
    rw [h.machines]
    exact hregistered.1
  have hrepublished : ∀ db', reconcileMachine js codec vault (draws x.1) now authorization x.1
      x.2.2 db = .ok (true, db') →
      Progress js codec vault log draws db₁ record.revision (done ++ [x]) rest db' := by
    intro db' hreconcile
    obtain ⟨hfalse, -⟩ | ⟨-, _, _, _, _, hrepublishes⟩ := reconcileMachine_eq_ok hreconcile
    · cases hfalse
    · obtain ⟨revision, requestKey, hnext, hpolicy, rfl⟩ := hrepublishes.next h.inv.targets
        hmachine (hopens x.1) hrecord hauthorization htext hlatest
      exact h.publish hfresh.distinct hnodup hnext hpolicy
  by_cases hneeds : Eligible db₁ x.1 x.2.2 ∧
      (configRow x.1 db).desiredPolicyRevision < record.revision
  · obtain ⟨hel, hlater⟩ := hneeds
    have heligible := h.eligible hrow hel
    obtain ⟨hrevision, htask⟩ := h.fresh x (.head _)
    have hsame := h.configRow_eq (.head _)
    obtain ⟨db', hreconcile⟩ := @reconcileMachine_of_eligible _ js codec vault log db (draws x.1)
      now authorization _ _ _ h.inv heligible (by rw [h.rows x (.head _), hsame]) hlater htext
      hrevision htask (hfresh.size x.1 (by rw [hrow]; rfl))
    rw [reconcileStep_of_eligible changed heligible hsame (by rw [hnumber, ← hsame]; exact hlater)
      hreconcile]
    exact hrepublished db' hreconcile
  · rcases @reconcileStep_eq _ js codec vault draws now authorization (changed, db) x with
      heq | ⟨db', hreconcile, heq⟩
    · rw [heq]
      refine h.pass fun hel => ?_
      exact le_antisymm (desired_le h.inv hzero hlatest x.1)
        (not_lt.1 fun hlater => hneeds ⟨hel, hlater⟩)
    · rw [heq]
      exact hrepublished db' hreconcile

/-- **The loop.** -/
theorem Progress.steps (xs : List (String × ConfigRow × MachineRow))
    (state : List String × Database)
    (h : Progress js codec vault log draws db₁ record.revision done xs state.2)
    (hfresh : FreshDraws codec draws record.revision db₁)
    (hopens : ∀ id text, vault.renderedOf ((draws id).rendered text) = some text)
    (hrecord : record ∈ log) (hauthorization : record.authorization = authorization)
    (htext : authorization.policyRevision = integerText record.revision)
    (hzero : 0 ≤ record.revision) (hlatest : ∀ r ∈ log, r.revision ≤ record.revision)
    (hnodup : ((done ++ xs).map Prod.fst).Nodup) (hxs : ∀ x ∈ xs, x ∈ configured db₁) :
    Progress js codec vault log draws db₁ record.revision (done ++ xs) []
      (xs.foldl (reconcileStep js codec vault draws now authorization) state).2 := by
  induction xs generalizing done state with
  | nil => rwa [List.append_nil]
  | cons x xs ih =>
    have hstep : Progress js codec vault log draws db₁ record.revision (done ++ [x]) xs
        (reconcileStep js codec vault draws now authorization state x).2 :=
      h.step hfresh hopens hrecord hauthorization htext hzero hlatest hnodup (hxs x (.head _))
    have hnext := ih (reconcileStep js codec vault draws now authorization state x) hstep
      (by rwa [List.append_assoc]) fun y hy => hxs y (.tail _ hy)
    rwa [List.append_assoc] at hnext

end Loop

/-! ## A reconciliation -/

theorem nodup_configured (db : Database) : ((configured db).map Prod.fst).Nodup := by
  have hsublist : ∀ rows : List (String × ConfigRow),
      ((rows.filterMap fun x => ((db.machines.get? x.1).filter fun machine =>
        machine.removedAt.isNone).map fun machine => (x.1, x.2, machine)).map Prod.fst).Sublist
        (rows.map Prod.fst) := by
    intro rows
    induction rows with
    | nil => exact .slnil
    | cons x rows ih =>
      rw [List.filterMap_cons]
      cases (db.machines.get? x.1).filter fun machine => machine.removedAt.isNone with
      | none => exact ih.cons _
      | some machine => exact ih.cons_cons _
  exact (hsublist _).nodup db.machineConfigs.nodup

/-- **A reconciliation leaves no machine behind.** In any run of the panel from the start whose
fingerprints do not collide, a reconciliation with new draws succeeds, and afterwards every
enrolled machine that applies configurations, was not uninstalled and has settings desires the
policy that was refreshed; the last target of its binding epoch is its desired revision under
this policy. -/
theorem reconcile_complete {fresh : String → String} {draws : String → Draws N} {now : Int}
    {authorization : AuthorizationLayer} {db₁ : Database}
    (h : ConfigRun js codec vault Database.empty log db)
    (hhash : CollisionFree (log ++ [refreshedBy now db authorization db₁]))
    (hopens : ∀ id text, vault.renderedOf ((draws id).rendered text) = some text)
    (hfresh : FreshDraws codec draws (policyNumber authorization) db)
    (hrefresh : refresh vault.toVault fresh now db = .ok (authorization, db₁)) :
    ∃ changed db', reconcile js codec vault fresh draws now db = .ok (changed, db') ∧
      ∀ machineId machine, Eligible db machineId machine →
        (configRow machineId db').desiredPolicyRevision = policyNumber authorization ∧
        ∃ revisionId taskId task, (configRow machineId db').desiredRevisionId = some revisionId ∧
          db'.tasks.Last (AppliesAt machineId machine.bindingEpoch) (taskId, task) ∧
          task.payload =
            codec.taskSpecToBinary (.applyConfig revisionId (policyNumber authorization)) := by
  have hinv := configInv_of_run h hhash.left
  have hrun' := (policyRun_of_configRun h).refreshed hrefresh
  have htext := (left_refreshedBy hrefresh).text
  have hlatest : ∀ r ∈ log ++ [refreshedBy now db authorization db₁],
      r.revision ≤ (refreshedBy now db authorization db₁).revision := fun r hr =>
    revision_le_latest hrun' hhash hr (by simp)
  have hrecord : (refreshedBy now db authorization db₁).authorization = authorization := rfl
  generalize refreshedBy now db authorization db₁ = record at *
  have hnumber : policyNumber authorization = record.revision :=
    policyNumber_of_text (hrecord ▸ htext)
  have hlast : record ∈ log ++ [record] := List.mem_append_right _ (List.mem_singleton_self _)
  have hone : 1 ≤ record.revision := (one_le_revision hrun').2 record hlast
  obtain ⟨credentials, quotas, policy, hframe⟩ := refresh_frame hrefresh
  have hsame : db₁.machines = db.machines ∧ db₁.tasks = db.tasks ∧
      db₁.machineConfigs = db.machineConfigs ∧ db₁.configRevisions = db.configRevisions := by
    rw [hframe]
    exact ⟨rfl, rfl, rfl, rfl⟩
  obtain ⟨hmachines, htasks, hconfigs, hrevisions⟩ := hsame
  have hstart : Progress js codec vault (log ++ [record]) draws db₁ record.revision []
      (configured db₁) db₁ :=
    { inv := hinv.refreshed hrefresh record
      machines := rfl
      alive := fun _ _ => rfl
      rows := fun x hx => (mem_configured.1 hx).1
      fresh := fun x _ => by
        rw [hrevisions, htasks]
        exact ⟨hfresh.revisions x.1, hfresh.tasks x.1⟩
      finished := fun x hx => absurd hx List.not_mem_nil }
  rw [hnumber] at hfresh
  have hfresh₁ : FreshDraws codec draws record.revision db₁ :=
    ⟨by rw [hrevisions]; exact hfresh.revisions, by rw [htasks]; exact hfresh.tasks,
      hfresh.distinct, by rw [hconfigs]; exact hfresh.size⟩
  have hend : Progress js codec vault (log ++ [record]) draws db₁ record.revision
      ([] ++ configured db₁) []
      ((configured db₁).foldl (reconcileStep js codec vault draws now authorization)
        ([], db₁)).2 :=
    Progress.steps (configured db₁) ([], db₁) hstart hfresh₁ hopens hlast hrecord
      (hrecord ▸ htext) (by omega) hlatest (nodup_configured db₁) fun x hx => hx
  refine ⟨_, _, by simp only [reconcile, hrefresh, ok_bind]; rfl, fun machineId machine hel => ?_⟩
  -- An eligible machine is one of those the loop is about.
  have hel₁ : Eligible db₁ machineId machine :=
    ⟨by rw [Registered, hmachines]; exact hel.registered, hel.installed, hel.supported,
      by rw [isUninstalled, htasks]; exact hel.alive,
      by rw [configRow, hconfigs]; exact hel.settings⟩
  have hrow : db₁.machineConfigs.get? machineId = some (configRow machineId db₁) := by
    have hsettings := hel₁.settings
    unfold configRow at hsettings ⊢
    cases hget : db₁.machineConfigs.get? machineId with
    | none =>
      rw [hget] at hsettings
      exact absurd rfl hsettings
    | some row => rfl
  have hdesired := hend.finished (machineId, configRow machineId db₁, machine)
    (mem_configured.2 ⟨hrow, hel₁.registered⟩) hel₁
  dsimp only at hdesired
  obtain ⟨machine', x, hmachine', hx⟩ := hend.inv.targets.pending machineId (by
    rw [hdesired]
    omega)
  have hregistered := hel₁.registered.1
  rw [← hend.machines, hmachine'] at hregistered
  obtain rfl := Option.some.inj hregistered
  obtain ⟨revisionId, hrevisionId, hpayload⟩ := hend.inv.targets.last machineId _ x hmachine' hx
  rw [hdesired] at hpayload
  rw [hnumber]
  exact ⟨hdesired, revisionId, x.1, x.2, hrevisionId, hx, hpayload⟩

/-! ## Another account -/

def thirdRefresh : Refreshed :=
  refreshedBy 0 grownDb (afterRefresh grownDb).1 (afterRefresh grownDb).2

def reconcileDraws (id : String) : Draws ℕ := rolloutDraws ("r-" ++ id) ("t-" ++ id)

/-- What the panel with another account computes. -/
theorem grown_computed :
    (refresh plainVault (fun _ => "first") 0 grownDb).toOption.isSome = true ∧
    policyNumber (afterRefresh grownDb).1 = 2 ∧
    (thirdRefresh.grants = [("u", 1), ("v", 1)] ∧
      sha256 (fingerprintBytes [("u", 1)]) ≠ sha256 (fingerprintBytes [("u", 1), ("v", 1)])) ∧
    (grownDb.configRevisions.rows.map Prod.fst = ["r"] ∧
      grownDb.tasks.rows.map Prod.fst = ["t"] ∧
      grownDb.machineConfigs.rows.map Prod.fst = ["m"]) ∧
    (grownDb.machines.get? "m").any (fun machine => machine.removedAt.isNone &&
      machine.installationId.isSome &&
      machine.supportedTasks.contains TaskKind.applyConfig.number &&
      !isUninstalled grownDb "m" machine.bindingEpoch) = true ∧
    (configRow "m" grownDb).settingsCiphertext.isSome = true := by
  decide +kernel

theorem grown_collisionFree :
    CollisionFree ([] ++ [firstRefresh] ++ [secondRefresh] ++ [] ++ [thirdRefresh]) := by
  obtain ⟨-, -, -, hearlier, -⟩ := rollout_computed
  obtain ⟨-, -, ⟨hthird, hne⟩, -⟩ := grown_computed
  have hgrants : ∀ a ∈ [] ++ [firstRefresh] ++ [secondRefresh] ++ [] ++ [thirdRefresh],
      a.grants = [("u", 1)] ∨ a.grants = [("u", 1), ("v", 1)] := by
    intro a ha
    rcases List.mem_append.1 ha with ha | ha
    · rw [List.append_nil] at ha
      exact .inl (hearlier a ha).1
    · rw [List.mem_singleton.1 ha]
      exact .inr hthird
  intro a ha b hb heq
  rcases hgrants a ha with h | h <;> rcases hgrants b hb with h' | h' <;> rw [h, h'] at heq ⊢
  · exact absurd heq hne
  · exact absurd heq.symm hne

theorem fresh_reconcileDraws : FreshDraws rolloutCodec reconcileDraws
    (policyNumber (afterRefresh grownDb).1) grownDb := by
  obtain ⟨-, hnumber, -, ⟨hrevisions, htasks, hconfigs⟩, -⟩ := grown_computed
  have hnone : ∀ {ρ : Type} (t : Table String ρ) (a b : String), t.rows.map Prod.fst = [b] →
      a.length ≠ b.length → t.get? a = none := by
    intro ρ t a b hrows hlength
    cases hget : t.get? a with
    | none => rfl
    | some row =>
      have hmem : a ∈ t.rows.map Prod.fst := List.mem_map_of_mem (Table.mem_rows_iff.2 hget)
      rw [hrows, List.mem_singleton] at hmem
      exact absurd (congrArg String.length hmem) hlength
  have hinjective : ∀ a id id' : String, id ≠ id' → a ++ id ≠ a ++ id' := by
    intro a id id' hne heq
    have hlist := congrArg String.toList heq
    rw [String.toList_append, String.toList_append, List.append_cancel_left_eq] at hlist
    exact hne (String.toList_injective hlist)
  have hlonger : ∀ a id b : String, b.length < a.length → (a ++ id).length ≠ b.length := by
    intro a id b h
    rw [String.length_append]
    omega
  refine ⟨fun id => hnone _ _ _ hrevisions (hlonger _ _ _ (by decide)),
    fun id => hnone _ _ _ htasks (hlonger _ _ _ (by decide)),
    fun id id' hne => ⟨hinjective _ _ _ hne, hinjective _ _ _ hne⟩, fun id hid => ?_⟩
  have hid' : id = "m" := by
    obtain ⟨row, hrow⟩ := Option.isSome_iff_exists.1 hid
    have hmem : id ∈ grownDb.machineConfigs.rows.map Prod.fst :=
      List.mem_map_of_mem (Table.mem_rows_iff.2 hrow)
    rwa [hconfigs, List.mem_singleton] at hmem
  rw [hid', hnumber]
  decide +kernel

/-- The reconciliation that follows publishes to the machine. -/
theorem grown_reconciled : ∃ changed db', reconcile decimalRuntime rolloutCodec rolloutVault
    (fun _ => "first") reconcileDraws 0 grownDb = .ok (changed, db') ∧
      (configRow "m" db').desiredPolicyRevision = 2 := by
  obtain ⟨hrefreshed, hnumber, -, -, hfacts, hsettings⟩ := grown_computed
  have hrefresh : refresh rolloutVault.toVault (fun _ => "first") 0 grownDb =
      .ok ((afterRefresh grownDb).1, (afterRefresh grownDb).2) :=
    refresh_eq_ok_after hrefreshed
  obtain ⟨changed, db', hreconcile, hcomplete⟩ := reconcile_complete grown_run grown_collisionFree
    (fun id => (opens_rolloutDraws _ _).rendered) fresh_reconcileDraws hrefresh
  refine ⟨changed, db', hreconcile, ?_⟩
  obtain ⟨machine, hmachine, hfacts⟩ := (Option.any_eq_true _ _).1 hfacts
  simp only [Bool.and_eq_true, Bool.not_eq_true', Option.isNone_iff_eq_none] at hfacts
  obtain ⟨⟨⟨hactive, hinstalled⟩, hsupported⟩, halive⟩ := hfacts
  rw [← hnumber]
  exact (hcomplete "m" machine ⟨⟨hmachine, hactive⟩, Option.isSome_iff_ne_none.1 hinstalled,
    hsupported, halive, Option.isSome_iff_ne_none.1 hsettings⟩).1

end Bifurcation.Panel
