import Bifurcation.Panel.ConfigurationInvariant
import Bifurcation.Panel.Rendering

/-!
# Configuration runs

The **runs** of the panel, as far as its configurations are concerned: previews and publications,
the reconciliations that render and publish again, rebindings, the calls of machines, and any
refresh of the policy in between. The invariant of configurations holds after every run, and what
a run leaves behind stays: revisions, histories, and what the tasks ask for. A rollout of one
configuration to one machine is computed in the end.

Main result: `publication_consistent`.
-/

namespace Bifurcation.Panel

open Javascript

/-! ## Runs -/

section Runs

variable {N : Type} (js : Runtime N) (codec : Codec) (vault : ConfigVault N)

/-- Changes that leave configurations, machines, tasks, histories and the policy alone. -/
structure Elsewhere (db db' : Database) : Prop where
  credentials : db'.proxyCredentials = db.proxyCredentials
  policy : db'.policyState = db.policyState
  machines : db'.machines = db.machines
  tasks : db'.tasks = db.tasks
  configs : db'.machineConfigs = db.machineConfigs
  previews : db'.configPreviews = db.configPreviews
  revisions : db'.configRevisions = db.configRevisions
  history : db'.machineUserHistory = db.machineUserHistory

/-- A committed change of the panel, with the refreshes it made. A call that throws before it
commits and a publication that was made before change nothing. -/
inductive ConfigStep (db : Database) : List Refreshed → Database → Prop where
  | elsewhere {db' : Database} (h : Elsewhere db db') : ConfigStep db [] db'
  | initialized (fresh : String → String) (userId : String) :
      ConfigStep db [] (initializeUserSecrets fresh userId db)
  | reset {db' : Database} {fresh : String → String} {userId : String}
      (h : resetProxyCredentials vault.toVault fresh userId db = .ok db') : ConfigStep db [] db'
  | machine {db' : Database} {now : Int} {call : Call} {entry : Entry} (hcall : call.Ordinary)
      (h : perform codec now db call = .ok (entry, db')) : ConfigStep db [] db'
  | rebound {db' : Database} {machineId token : String} {expectedVersion now : Int}
      (h : rebindMachine machineId expectedVersion token now db = .ok db') : ConfigStep db [] db'
  /-- A refresh, as of a request for a configuration, with what its call changes afterwards. -/
  | refreshed {db₁ db' : Database} {fresh : String → String} {now : Int}
      {authorization : AuthorizationLayer}
      (hrefresh : refresh vault.toVault fresh now db = .ok (authorization, db₁))
      (h : Elsewhere db₁ db') : ConfigStep db [refreshedBy now db authorization db₁] db'
  | previewed {db₁ db' : Database} {draws : Draws N} {now : Int} {machineId createdBy : String}
      {expectedVersion : Int} {settings : MachineConfigurationInput N}
      {authorization : AuthorizationLayer} {result : ConfigurationPreview}
      (hopens : draws.Opens vault settings)
      (hrefresh : refresh vault.toVault draws.secrets now db = .ok (authorization, db₁))
      (h : preview js vault draws now machineId expectedVersion settings createdBy db =
        .ok (result, db')) : ConfigStep db [refreshedBy now db authorization db₁] db'
  /-- A first publication: the digest of its target is new. -/
  | published {db₁ db' : Database} {draws : Draws N} {now : Int} {machineId createdBy : String}
      {input : PublishInput} {authorization : AuthorizationLayer} {result : ConfigurationPublish}
      (hnew : ∀ row, db.configPreviews.get? input.previewId = some row →
        ∀ x ∈ db.tasks.rows, x.2.payloadHash ≠
          sha256 (codec.taskSpecToBinary (.applyConfig draws.id row.policyRevision)))
      (hfirst : ∀ row, db.configPreviews.get? input.previewId = some row →
        row.publishedRevisionId = none)
      (hrefresh : refresh vault.toVault draws.secrets now db = .ok (authorization, db₁))
      (h : publish codec vault draws now machineId input createdBy db = .ok (result, db')) :
      ConfigStep db [refreshedBy now db authorization db₁] db'
  | reconciled {db₁ db' : Database} {fresh : String → String} {draws : String → Draws N}
      {now : Int} {authorization : AuthorizationLayer} {changed : List String}
      (hopens : ∀ id text, vault.renderedOf ((draws id).rendered text) = some text)
      (hrefresh : refresh vault.toVault fresh now db = .ok (authorization, db₁))
      (h : reconcile js codec vault fresh draws now db = .ok (changed, db')) :
      ConfigStep db [refreshedBy now db authorization db₁] db'
  | cleaned (now : Int) : ConfigStep db [] (cleanPreviews now db)

/-- The committed changes of a panel, with its refreshes, the latest last. -/
inductive ConfigRun (start : Database) : List Refreshed → Database → Prop where
  | start : ConfigRun start [] start
  | step {log records : List Refreshed} {db db' : Database} (h : ConfigRun start log db)
      (hstep : ConfigStep js codec vault db records db') : ConfigRun start (log ++ records) db'

variable {js codec vault} {start db db' : Database} {log records : List Refreshed}

theorem Elsewhere.inv (h : Elsewhere db db') (hinv : ConfigInv js codec vault log db) :
    ConfigInv js codec vault log db' :=
  hinv.congr (fun id => by rw [configRow, h.configs, configRow]) h.revisions h.previews h.history
    h.machines h.tasks fun _ hr => hr

/-- A first publication is one of its preview. -/
theorem publishes_of_first {draws : Draws N} {now : Int} {machineId createdBy : String}
    {input : PublishInput} {result : ConfigurationPublish} {authorization : AuthorizationLayer}
    {db₁ : Database}
    (hfirst : ∀ row, db.configPreviews.get? input.previewId = some row →
      row.publishedRevisionId = none)
    (hrefresh : refresh vault.toVault draws.secrets now db = .ok (authorization, db₁))
    (h : publish codec vault draws now machineId input createdBy db = .ok (result, db')) :
    ∃ preview, Found machineId input.previewId createdBy db preview ∧
      Publishes vault codec draws now machineId input createdBy preview authorization db₁ db db'
        result.taskId ∧
      result = ⟨draws.id, (configRow machineId db).version + 1, result.taskId⟩ := by
  obtain ⟨preview, hfound, ⟨id, hid, -, -⟩ | ⟨-, _, _, hpublishes, hresult⟩⟩ := publish_eq_ok h
  · rw [hfirst preview hfound.row] at hid
    cases hid
  · have hsame := hpublishes.refreshed
    rw [hrefresh] at hsame
    obtain ⟨rfl, rfl⟩ := Prod.mk.inj (Except.ok.inj hsame)
    exact ⟨preview, hfound, hpublishes, hresult⟩

theorem SameButConfigs.policy (h : SameButConfigs db db') :
    db'.proxyCredentials = db.proxyCredentials ∧ db'.policyState = db.policyState := by
  obtain ⟨_, _, _, _, _, rfl⟩ := h
  exact ⟨rfl, rfl⟩

/-- The loop of a reconciliation, as steps of any relation that its transactions keep. -/
theorem reconcile_induction {R : Database → Database → Prop} (hrefl : ∀ db, R db db)
    (htrans : ∀ a b c, R a b → R b c → R a c) {draws : String → Draws N} {now : Int}
    {authorization : AuthorizationLayer}
    (hstep : ∀ machineId machine db db', reconcileMachine js codec vault (draws machineId) now
      authorization machineId machine db = .ok (true, db') → R db db')
    (xs : List (String × ConfigRow × MachineRow)) (state : List String × Database) :
    R state.2 (xs.foldl (reconcileStep js codec vault draws now authorization) state).2 := by
  induction xs generalizing state with
  | nil => exact hrefl state.2
  | cons x xs ih =>
    rw [List.foldl_cons]
    refine htrans _ _ _ ?_ (ih _)
    rcases @reconcileStep_eq _ js codec vault draws now authorization state x with
      heq | ⟨db', hreconcile, heq⟩
    · rw [heq]
      exact hrefl state.2
    · rw [heq]
      exact hstep _ _ _ _ hreconcile

theorem sameButConfigs_reconcile {fresh : String → String} {draws : String → Draws N} {now : Int}
    {authorization : AuthorizationLayer} {changed : List String} {db₁ : Database}
    (hrefresh : refresh vault.toVault fresh now db = .ok (authorization, db₁))
    (h : reconcile js codec vault fresh draws now db = .ok (changed, db')) :
    SameButConfigs db₁ db' := by
  simp only [reconcile, hrefresh, ok_bind, pure_eq_ok] at h
  rw [← show _ = db' from congrArg Prod.snd h]
  exact reconcile_induction SameButConfigs.refl (fun _ _ _ => .trans)
    (fun _ _ _ _ => sameButConfigs_reconcileMachine) _ _

/-- The refreshes of a step are those of the policy. -/
theorem ConfigStep.policyRun (h : ConfigStep js codec vault db records db')
    (hrun : PolicyRun vault.toVault start log db) :
    PolicyRun vault.toVault start (log ++ records) db' := by
  have hnothing : ∀ {db'' : Database}, PolicyRun vault.toVault start log db'' →
      PolicyRun vault.toVault start (log ++ []) db'' := by
    intro db'' h
    rwa [List.append_nil]
  cases h with
  | elsewhere h => exact hnothing (hrun.changed h.credentials h.policy)
  | initialized fresh userId => exact hnothing (hrun.initialized fresh userId)
  | reset h => exact hnothing (hrun.reset h)
  | machine hcall h =>
    obtain ⟨_, _, rfl⟩ := (machineStep_perform hcall h).frame
    exact hnothing (hrun.changed rfl rfl)
  | rebound h =>
    simp only [rebindMachine, markForRebind, rebind, bind_eq_ok, failIf_eq_ok, get_eq_ok,
      pure_eq_ok, exists_const] at h
    obtain ⟨_, ⟨_, -, -, -, -, rfl⟩, -, -, rfl⟩ := h
    exact hnothing (hrun.changed rfl rfl)
  | refreshed hrefresh h => exact (hrun.refreshed hrefresh).changed h.credentials h.policy
  | previewed hopens hrefresh h =>
    obtain ⟨_, _, hrefresh', -, -, rfl⟩ := preview_eq_ok h
    rw [hrefresh] at hrefresh'
    obtain ⟨rfl, rfl⟩ := Prod.mk.inj (Except.ok.inj hrefresh')
    exact (hrun.refreshed hrefresh).changed rfl rfl
  | published hnew hfirst hrefresh h =>
    obtain ⟨preview, -, hpublishes, -⟩ := publishes_of_first hfirst hrefresh h
    have hsame := (sameButConfigs_enqueueTask hpublishes.enqueued).policy
    exact (hrun.refreshed hrefresh).changed hsame.1 hsame.2
  | reconciled hopens hrefresh h =>
    have hsame := (sameButConfigs_reconcile hrefresh h).policy
    exact (hrun.refreshed hrefresh).changed hsame.1 hsame.2
  | cleaned now => exact hnothing (hrun.changed rfl rfl)

theorem policyRun_of_configRun (h : ConfigRun js codec vault start log db) :
    PolicyRun vault.toVault start log db := by
  induction h with
  | start => exact .start start
  | step _ hstep ih => exact hstep.policyRun ih

/-- **A step keeps the invariant.** -/
theorem ConfigStep.inv (h : ConfigStep js codec vault db records db')
    (hrun : PolicyRun vault.toVault start log db) (hhash : CollisionFree (log ++ records))
    (hinv : ConfigInv js codec vault log db) :
    ConfigInv js codec vault (log ++ records) db' := by
  have hnothing : ∀ {db'' : Database}, ConfigInv js codec vault log db'' →
      ConfigInv js codec vault (log ++ []) db'' := by
    intro db'' h
    rwa [List.append_nil]
  cases h with
  | elsewhere h => exact hnothing (h.inv hinv)
  | initialized fresh userId =>
    obtain ⟨_, _, _, heq⟩ := sameBut_initialized fresh userId db
    rw [heq]
    exact hnothing (hinv.congr (fun _ => rfl) rfl rfl rfl rfl rfl fun _ hr => hr)
  | reset h =>
    simp only [resetProxyCredentials, bind_eq_ok, pure_eq_ok] at h
    obtain ⟨_, -, rfl⟩ := h
    exact hnothing (hinv.congr (fun _ => rfl) rfl rfl rfl rfl rfl fun _ hr => hr)
  | machine hcall h => exact hnothing (hinv.machineStep (machineStep_perform hcall h))
  | rebound h => exact hnothing (hinv.rebound h)
  | refreshed hrefresh h => exact h.inv (hinv.refreshed hrefresh _)
  | previewed hopens hrefresh h => exact hinv.previewed hopens hrefresh h
  | published hnew hfirst hrefresh h =>
    obtain ⟨preview, hfound, hpublishes, -⟩ := publishes_of_first hfirst hrefresh h
    exact hinv.published hrun hhash hfound hpublishes (hnew _ hfound.row)
  | reconciled hopens hrefresh h => exact hinv.reconciled hrun hhash hopens hrefresh h
  | cleaned now =>
    refine hnothing ⟨fun id => ?_, fun x hx => ?_, fun x hx => ?_, ?_⟩
    · have hp := hinv.publications id
      exact ⟨hp.versions, hp.version, hp.desired, hp.settings, hp.policy⟩
    · obtain ⟨record, hmem, hp⟩ := hinv.revisions x hx
      exact ⟨record, hmem, hp.rendered, hp.users, hp.remembered⟩
    · exact hinv.previews x (List.mem_of_mem_filter hx)
    · have ht := hinv.targets
      exact ⟨ht.sound, ht.epochs, ht.enrolled, ht.last, ht.queued, fun x hx epoch policy hkey =>
        have hk := ht.keys x hx epoch policy hkey
        ⟨hk.epoch, hk.policy, hk.desired⟩, ht.pending⟩

theorem CollisionFree.left {log records : List Refreshed} (h : CollisionFree (log ++ records)) :
    CollisionFree log := fun a ha b hb =>
  h a (List.mem_append_left _ ha) b (List.mem_append_left _ hb)

/-- The invariant holds after every run whose fingerprints do not collide. -/
theorem configInv_of_run (h : ConfigRun js codec vault Database.empty log db)
    (hhash : CollisionFree log) : ConfigInv js codec vault log db := by
  induction h with
  | start => exact configInv_empty
  | step hrun hstep ih => exact hstep.inv (policyRun_of_configRun hrun) hhash (ih hhash.left)

/-- **Configurations are published consistently.** After any run from an empty panel whose
fingerprints do not collide, the revisions of every machine are numbered from one on and the
machine desires the last; each was rendered from its settings under the policy revision it
carries, for the users it records, who are in the machine's history; a published preview is the
revision it names; and a queued target of the machine's binding asks for the desired revision
under the desired policy. -/
theorem publication_consistent (h : ConfigRun js codec vault Database.empty log db)
    (hhash : CollisionFree log) (machineId : String) :
    (∀ (i : ℕ) (x : String × RevisionRow),
      (revisionsOf machineId db)[i]? = some x → x.2.version = i + 1) ∧
    (configRow machineId db).desiredRevisionId =
      (revisionsOf machineId db).getLast?.map Prod.fst ∧
    (∀ x ∈ revisionsOf machineId db, ∃ record ∈ log, Published js vault record db x.2) ∧
    (∀ preview ∈ db.configPreviews.rows, PublishedAs db preview.2) ∧
    ∀ machine task, db.machines.get? machineId = some machine → task ∈ db.tasks.rows →
      AppliesAt machineId machine.bindingEpoch task.2 → task.2.state = .queued →
        ∃ revisionId, (configRow machineId db).desiredRevisionId = some revisionId ∧
          task.2.payload = codec.taskSpecToBinary
            (.applyConfig revisionId (configRow machineId db).desiredPolicyRevision) := by
  have hinv := configInv_of_run h hhash
  have hp := hinv.publications machineId
  refine ⟨hp.versions, hp.desired, fun x hx => hinv.revisions x (List.mem_of_mem_filter hx),
    fun preview hpreview => (hinv.previews preview hpreview).2, ?_⟩
  intro machine task hmachine htask happlies hqueued
  have hlast := hinv.targets.queued task htask happlies.2.2 hqueued
  rw [happlies.1, happlies.2.1] at hlast
  exact hinv.targets.last machineId machine task hmachine hlast

/-! ## Later states -/

/-- What stays in every run: revisions, histories, and what tasks ask for. -/
structure LaterConfigs (db db' : Database) : Prop where
  revisions : ∀ id row, db.configRevisions.get? id = some row →
    db'.configRevisions.get? id = some row
  history : ∀ key, (db.machineUserHistory.get? key).isSome = true →
    (db'.machineUserHistory.get? key).isSome = true
  tasks : Table.Grows SameTask (fun _ _ => True) db.tasks db'.tasks

theorem LaterConfigs.of_eq (hrevisions : db'.configRevisions = db.configRevisions)
    (hhistory : db'.machineUserHistory = db.machineUserHistory) (htasks : db'.tasks = db.tasks) :
    LaterConfigs db db' where
  revisions := by rw [hrevisions]; exact fun _ _ h => h
  history := by rw [hhistory]; exact fun _ h => h
  tasks := by rw [htasks]; exact .refl .refl _

theorem LaterConfigs.trans {db'' : Database} (h : LaterConfigs db db')
    (h' : LaterConfigs db' db'') : LaterConfigs db db'' where
  revisions := fun id row hrow => h'.revisions id row (h.revisions id row hrow)
  history := fun key hkey => h'.history key (h.history key hkey)
  tasks := h.tasks.trans h'.tasks SameTask.trans fun _ _ _ _ _ => trivial

theorem LaterConfigs.machineStep {again : String → Prop} (h : MachineStep again db db') :
    LaterConfigs db db' := by
  have htasks : Table.Grows SameTask (fun _ _ => True) db.tasks db'.tasks :=
    h.tasks.mono fun _ _ _ => trivial
  obtain ⟨_, _, rfl⟩ := h.frame
  exact ⟨fun _ _ h => h, fun _ h => h, htasks⟩

theorem laterConfigs_refresh {vault : Vault} {fresh : String → String} {now : Int}
    {authorization : AuthorizationLayer}
    (h : refresh vault fresh now db = .ok (authorization, db')) : LaterConfigs db db' := by
  obtain ⟨_, _, _, rfl⟩ := refresh_frame h
  exact .of_eq rfl rfl rfl

/-- An enqueued target. -/
theorem laterConfigs_enqueueTask {machineId requestKey taskId task : String} {spec : TaskSpec}
    {now : Int} (h : enqueueTask codec machineId spec requestKey taskId now db = .ok (task, db')) :
    LaterConfigs db db' := by
  obtain ⟨row, kind, -, -, ⟨_, -, -, -, -, -, rfl⟩ | ⟨-, hnone, -, -, rfl⟩⟩ := enqueueTask_eq_ok h
  · exact .of_eq rfl rfl rfl
  · refine ⟨fun _ _ h => h, fun _ h => h, ?_⟩
    unfold enqueued
    by_cases hkind : kind = .applyConfig
    · rw [if_pos hkind]
      refine ((grows_supersede _ _ _ _).mono fun _ _ hfalse => hfalse.elim).trans
        (Table.grows_set_of_none SameTask.refl (get?_superseded_eq_none hnone) trivial)
        SameTask.trans fun _ _ _ _ _ => trivial
    · rw [if_neg hkind]
      exact Table.grows_set_of_none SameTask.refl hnone trivial

theorem laterConfigs_publication {machineId revisionId : String} {revision : RevisionRow}
    {row : ConfigRow} {authorization : AuthorizationLayer}
    (hfresh : db.configRevisions.get? revisionId = none) :
    LaterConfigs db (publication machineId revisionId revision row authorization db) where
  revisions := fun id old hold => by
    have hne : id ≠ revisionId := by
      rintro rfl
      rw [hfresh] at hold
      cases hold
    exact (Table.get?_set_of_ne _ _ hne).trans hold
  history := fun _ hkey => isSome_rememberUsers.2 (.inr hkey)
  tasks := .refl .refl _

theorem laterConfigs_reconcileMachine {draws : Draws N} {now : Int}
    {authorization : AuthorizationLayer} {machineId : String} {machine : MachineRow} {done : Bool}
    (h : reconcileMachine js codec vault draws now authorization machineId machine db =
      .ok (done, db')) : LaterConfigs db db' := by
  obtain ⟨-, rfl⟩ | ⟨-, _, _, _, _, hrepublishes⟩ := reconcileMachine_eq_ok h
  · exact .of_eq rfl rfl rfl
  · exact (laterConfigs_publication hrepublishes.fresh).trans
      (laterConfigs_enqueueTask hrepublishes.enqueued)

theorem ConfigStep.later (h : ConfigStep js codec vault db records db') : LaterConfigs db db' := by
  cases h with
  | elsewhere h => exact .of_eq h.revisions h.history h.tasks
  | initialized fresh userId =>
    obtain ⟨_, _, _, heq⟩ := sameBut_initialized fresh userId db
    rw [heq]
    exact .of_eq rfl rfl rfl
  | reset h =>
    simp only [resetProxyCredentials, bind_eq_ok, pure_eq_ok] at h
    obtain ⟨_, -, rfl⟩ := h
    exact .of_eq rfl rfl rfl
  | machine hcall h => exact .machineStep (machineStep_perform hcall h)
  | @rebound _ machineId token expectedVersion now h =>
    simp only [rebindMachine, markForRebind, bind_eq_ok, get_eq_ok, pure_eq_ok] at h
    obtain ⟨db₁, hrebind, -, -, rfl⟩ := h
    have hperform : perform codec now db (.rebind machineId expectedVersion token) =
        .ok (.rebound machineId, db₁) := by
      rw [perform, hrebind]
      rfl
    have hstep : MachineStep (fun _ => True) db db₁ :=
      machineStep_effect (perform_effect hperform) (fun h => by cases h) fun _ _ => trivial
    exact (LaterConfigs.machineStep hstep).trans (.of_eq rfl rfl rfl)
  | refreshed hrefresh h =>
    exact (laterConfigs_refresh hrefresh).trans (.of_eq h.revisions h.history h.tasks)
  | previewed hopens hrefresh h =>
    obtain ⟨_, _, hrefresh', -, -, rfl⟩ := preview_eq_ok h
    exact (laterConfigs_refresh hrefresh').trans (.of_eq rfl rfl rfl)
  | @published db₁ _ draws now machineId createdBy input _ _ hnew hfirst hrefresh h =>
    obtain ⟨preview, -, hpublishes, -⟩ := publishes_of_first hfirst hrefresh h
    have hpreview : LaterConfigs db₁ { db₁.withConfigs (ensured machineId db) with
        configPreviews := db₁.configPreviews.set input.previewId
          { preview with publishedRevisionId := some draws.id } } := .of_eq rfl rfl rfl
    exact (((laterConfigs_refresh hrefresh).trans hpreview).trans
      (laterConfigs_publication hpublishes.fresh)).trans
        (laterConfigs_enqueueTask hpublishes.enqueued)
  | reconciled hopens hrefresh h =>
    simp only [reconcile, hrefresh, ok_bind, pure_eq_ok] at h
    rw [← show _ = db' from congrArg Prod.snd h]
    refine (laterConfigs_refresh hrefresh).trans ?_
    exact reconcile_induction (fun _ => LaterConfigs.of_eq rfl rfl rfl) (fun _ _ _ => .trans)
      (fun _ _ _ _ => laterConfigs_reconcileMachine) _ ([], _)
  | cleaned now => exact .of_eq rfl rfl rfl

theorem laterConfigs_run (h : ConfigRun js codec vault start log db) : LaterConfigs start db := by
  induction h with
  | start => exact .of_eq rfl rfl rfl
  | step _ hstep ih => exact ih.trans hstep.later

end Runs

/-! ## A rollout -/

/-- One unit as one character. -/
def sealText (text : JsString) : String :=
  String.ofList (text.map fun u => Char.ofNat (u.toNat + 0x10000))

def openText (text : String) : JsString :=
  text.toList.map fun c => UInt16.ofNat (c.toNat - 0x10000)

theorem openText_sealText (text : JsString) : openText (sealText text) = text := by
  rw [openText, sealText, String.toList_ofList, List.map_map]
  refine (List.map_congr_left fun u _ => ?_).trans (List.map_id text)
  have hlt := u.toNat_lt
  have hvalid : (u.toNat + 0x10000).isValidChar := by
    right
    omega
  have hchar : (Char.ofNat (u.toNat + 0x10000)).toNat = u.toNat + 0x10000 := by
    rw [Char.toNat_ofNat, if_pos hvalid]
  rw [Function.comp_apply, hchar, Nat.add_sub_cancel]
  exact UInt16.ofNat_toNat

/-- Settings of a node. -/
def nodeSettings : MachineConfigurationInput ℕ where
  listen := none
  trojanPort := 443
  hysteria2Port := 8443
  tls := .acme (utf16 "node.test") (utf16 "admin@node.test")
  baseJson := []

/-- Texts that are hidden by another alphabet only. -/
def rolloutVault : ConfigVault ℕ where
  toVault := plainVault
  settingsOf text := if text = "settings" then some nodeSettings else none
  renderedOf text := some (openText text)

def rolloutDraws (id taskId : String) : Draws ℕ where
  secrets _ := "first"
  settings _ := "settings"
  rendered := sealText
  id := id
  taskId := taskId

/-- A codec for targets: the sign of the policy revision, its size, and the id. -/
def rolloutCodec : Codec where
  taskSpecToBinary
    | .applyConfig id policyRevision => (if policyRevision < 0 then 1 else 0) ::
      (List.replicate policyRevision.natAbs 1 ++ 0 :: utf8 id)
    | _ => []
  taskSpecFromBinary
    | [] => none
    | sign :: rest =>
      let size := (rest.takeWhile (· = 1)).length
      some (.applyConfig (String.ofList (decodeRunes (rest.drop (size + 1))))
        (if sign = 1 then -(size : Int) else size))
  reportTaskToBinary _ := []
  usageBatchFromBinary _ := some ⟨[⟨"u", 0, 60000, 7, 1, false, false⟩], "core"⟩
  diagnosticText _ := none

theorem rolloutCodec_target (id : String) (policyRevision : Int) :
    rolloutCodec.taskSpecFromBinary
      (rolloutCodec.taskSpecToBinary (.applyConfig id policyRevision)) =
        some (.applyConfig id policyRevision) := by
  have hsize : ((List.replicate policyRevision.natAbs (1 : UInt8) ++ 0 :: utf8 id).takeWhile
      (· = 1)).length = policyRevision.natAbs := by
    rw [List.takeWhile_append_of_pos (by simp), List.takeWhile_cons_of_neg (by decide),
      List.append_nil, List.length_replicate]
  have hid : String.ofList (decodeRunes ((List.replicate policyRevision.natAbs (1 : UInt8) ++
      0 :: utf8 id).drop (policyRevision.natAbs + 1))) = id := by
    rw [List.drop_append, List.length_replicate, Nat.add_sub_cancel_left, List.drop_of_length_le
      (by simp), List.nil_append, List.drop_one, List.tail_cons, utf8, decodeRunes_encodeRunes,
      String.ofList_toList]
  simp only [rolloutCodec, hsize, hid]
  by_cases hsign : policyRevision < 0
  · rw [if_pos hsign, if_pos rfl, Int.ofNat_natAbs_of_nonpos hsign.le, neg_neg]
  · rw [if_neg hsign, if_neg (by decide), Int.natAbs_of_nonneg (not_lt.1 hsign)]

/-- The state a call leaves. -/
def after {α : Type} (db : Database) (result : Except PanelError (α × Database)) : Database :=
  match result with
  | .ok r => r.2
  | .error _ => db

theorem eq_ok_after {α : Type} {db : Database} {result : Except PanelError (α × Database)}
    (h : result.toOption.isSome = true) : ∃ a, result = .ok (a, after db result) := by
  cases result with
  | error e => cases h
  | ok r => exact ⟨r.1, rfl⟩

def machineToken : String := "bm_0000000000000000000000000000000000000000000"

/-- A panel with one account and a machine. -/
def createdDb : Database :=
  after accountDb (perform rolloutCodec 0 accountDb (.create "m" machineToken))

/-- The machine connects. -/
def connection : Call :=
  .watchTasks (some ("Bearer " ++ machineToken)) (some ⟨"installation-0001", 0⟩)
    ⟨"1.0.0", "linux", "amd64", [3]⟩

def connectedDb : Database := after createdDb (perform rolloutCodec 0 createdDb connection)

def previewedDb : Database :=
  after connectedDb (preview decimalRuntime rolloutVault (rolloutDraws "p" "") 0 "m" 0 nodeSettings
    "admin" connectedDb)

theorem requestKey_isUuid : isUuid "00000000-0000-4000-8000-000000000001" = true := by
  decide +kernel

def rolloutInput : PublishInput where
  previewId := "p"
  expectedVersion := 0
  requestKey := ⟨"00000000-0000-4000-8000-000000000001", requestKey_isUuid⟩

def publishedDb : Database :=
  after previewedDb (publish rolloutCodec rolloutVault (rolloutDraws "r" "t") 0 "m" rolloutInput
    "admin" previewedDb)

theorem refresh_eq_ok_after {db : Database}
    (h : (refresh plainVault (fun _ => "first") 0 db).toOption.isSome = true) :
    refresh plainVault (fun _ => "first") 0 db =
      .ok ((afterRefresh db).1, (afterRefresh db).2) := by
  unfold afterRefresh
  cases hresult : refresh plainVault (fun _ => "first") 0 db with
  | error e =>
    rw [hresult] at h
    cases h
  | ok r => rfl

/-- The refreshes of the preview and of the publication. -/
def firstRefresh : Refreshed :=
  refreshedBy 0 connectedDb (afterRefresh connectedDb).1 (afterRefresh connectedDb).2

def secondRefresh : Refreshed :=
  refreshedBy 0 previewedDb (afterRefresh previewedDb).1 (afterRefresh previewedDb).2

-- One computation: the hashes are the work, and its parts share them.
/-- What the rollout computes: its calls succeed, the preview is published once, and the refreshes
grant the account. -/
theorem rollout_computed :
    ((perform rolloutCodec 0 accountDb (.create "m" machineToken)).toOption.isSome = true ∧
      (perform rolloutCodec 0 createdDb connection).toOption.isSome = true ∧
      (preview decimalRuntime rolloutVault (rolloutDraws "p" "") 0 "m" 0 nodeSettings "admin"
        connectedDb).toOption.isSome = true ∧
      (publish rolloutCodec rolloutVault (rolloutDraws "r" "t") 0 "m" rolloutInput "admin"
        previewedDb).toOption.isSome = true) ∧
    ((refresh plainVault (fun _ => "first") 0 connectedDb).toOption.isSome = true ∧
      (refresh plainVault (fun _ => "first") 0 previewedDb).toOption.isSome = true) ∧
    (previewedDb.tasks.rows = [] ∧
      (previewedDb.configPreviews.get? rolloutInput.previewId).bind
        PreviewRow.publishedRevisionId = none) ∧
    (∀ a ∈ [] ++ [firstRefresh] ++ [secondRefresh],
      a.grants = [("u", 1)] ∧ userIds a.authorization = ["u"]) ∧
    (revisionsOf "m" publishedDb).map (fun x => (x.1, x.2.version)) = [("r", 1)] ∧
    (publishedDb.machines.get? "m").any (fun machine => machine.removedAt.isNone) = true := by
  decide +kernel

theorem rollout_preview : ∃ result, preview decimalRuntime rolloutVault (rolloutDraws "p" "") 0 "m"
    0 nodeSettings "admin" connectedDb = .ok (result, previewedDb) := by
  obtain ⟨⟨-, -, hpreview, -⟩, -⟩ := rollout_computed
  exact eq_ok_after hpreview

theorem rollout_publish : ∃ result, publish rolloutCodec rolloutVault (rolloutDraws "r" "t") 0 "m"
    rolloutInput "admin" previewedDb = .ok (result, publishedDb) := by
  obtain ⟨⟨-, -, -, hpublish⟩, -⟩ := rollout_computed
  exact eq_ok_after hpublish

theorem opens_rolloutDraws (id taskId : String) :
    (rolloutDraws id taskId).Opens rolloutVault nodeSettings :=
  ⟨rfl, fun text => congrArg some (openText_sealText text)⟩

theorem connected_run :
    ConfigRun decimalRuntime rolloutCodec rolloutVault Database.empty [] connectedDb := by
  have haccount : Elsewhere Database.empty accountDb := ⟨rfl, rfl, rfl, rfl, rfl, rfl, rfl, rfl⟩
  obtain ⟨⟨hcreated, hconnected, -⟩, -⟩ := rollout_computed
  obtain ⟨_, hcreate⟩ := eq_ok_after hcreated
  obtain ⟨_, hconnect⟩ := eq_ok_after hconnected
  have hrun : ConfigRun decimalRuntime rolloutCodec rolloutVault Database.empty [] createdDb :=
    (ConfigRun.start.step (.elsewhere haccount)).step (.machine (by exact trivial) hcreate)
  exact hrun.step (.machine (by exact trivial) hconnect)

/-- The publication, of a preview that was not published before. -/
theorem rollout_first : (∀ row, previewedDb.configPreviews.get? rolloutInput.previewId = some row →
      ∀ x ∈ previewedDb.tasks.rows, x.2.payloadHash ≠ sha256 (rolloutCodec.taskSpecToBinary
        (.applyConfig (rolloutDraws "r" "t").id row.policyRevision))) ∧
    ∀ row, previewedDb.configPreviews.get? rolloutInput.previewId = some row →
      row.publishedRevisionId = none := by
  obtain ⟨-, -, ⟨hnone, hunpublished⟩, -⟩ := rollout_computed
  refine ⟨fun _ _ x hx => ?_, fun row hrow => ?_⟩
  · rw [hnone] at hx
    cases hx
  · rw [hrow] at hunpublished
    exact hunpublished

theorem toVault_rollout : rolloutVault.toVault = plainVault := rfl

theorem secrets_rollout (id taskId : String) :
    (rolloutDraws id taskId).secrets = fun _ => "first" := rfl

theorem previewed_step :
    ConfigStep decimalRuntime rolloutCodec rolloutVault connectedDb [firstRefresh] previewedDb := by
  obtain ⟨_, hpreview⟩ := rollout_preview
  obtain ⟨-, ⟨hrefreshed, -⟩, -⟩ := rollout_computed
  have hrefresh : refresh rolloutVault.toVault (rolloutDraws "p" "").secrets 0 connectedDb =
      .ok ((afterRefresh connectedDb).1, (afterRefresh connectedDb).2) := by
    rw [toVault_rollout, secrets_rollout]
    exact refresh_eq_ok_after hrefreshed
  exact .previewed (opens_rolloutDraws "p" "") hrefresh hpreview

/-- The refresh of the publication. -/
theorem rollout_refresh :
    refresh rolloutVault.toVault (rolloutDraws "r" "t").secrets 0 previewedDb =
      .ok ((afterRefresh previewedDb).1, (afterRefresh previewedDb).2) := by
  obtain ⟨-, ⟨-, hrefreshed⟩, -⟩ := rollout_computed
  rw [toVault_rollout, secrets_rollout]
  exact refresh_eq_ok_after hrefreshed

theorem published_step :
    ConfigStep decimalRuntime rolloutCodec rolloutVault previewedDb [secondRefresh]
      publishedDb := by
  obtain ⟨_, hpublish⟩ := rollout_publish
  exact .published rollout_first.1 rollout_first.2 rollout_refresh hpublish

/-- An account is added, a machine connects and is given a configuration. -/
theorem rollout_run : ConfigRun decimalRuntime rolloutCodec rolloutVault Database.empty
    ([] ++ [firstRefresh] ++ [secondRefresh]) publishedDb :=
  (connected_run.step previewed_step).step published_step

theorem rollout_collisionFree : CollisionFree ([] ++ [firstRefresh] ++ [secondRefresh]) := by
  obtain ⟨-, -, -, hgrants, -⟩ := rollout_computed
  intro a ha b hb _
  rw [(hgrants a ha).1, (hgrants b hb).1]

/-- The machine desires its only revision, which was rendered under a refresh of the run. -/
theorem rollout_consistent :
    (revisionsOf "m" publishedDb).map (fun x => (x.1, x.2.version)) = [("r", 1)] ∧
      (configRow "m" publishedDb).desiredRevisionId = some "r" ∧
      ∀ x ∈ revisionsOf "m" publishedDb,
        ∃ record ∈ [] ++ [firstRefresh] ++ [secondRefresh],
          Published decimalRuntime rolloutVault record publishedDb x.2 := by
  obtain ⟨-, -, -, -, hone, -⟩ := rollout_computed
  obtain ⟨-, hdesired, hrendered, -⟩ :=
    publication_consistent rollout_run rollout_collisionFree "m"
  refine ⟨hone, hdesired.trans ?_, hrendered⟩
  have hids : (revisionsOf "m" publishedDb).map Prod.fst = ["r"] := by
    have hfirst := congrArg (List.map Prod.fst) hone
    rwa [List.map_map] at hfirst
  rw [← List.getLast?_map, hids]
  rfl

/-- The panel after the rollout, with another account. -/
def grownDb : Database :=
  { publishedDb with users := publishedDb.users.set "v" ⟨.active, none⟩ }

theorem grown_run : ConfigRun decimalRuntime rolloutCodec rolloutVault Database.empty
    ([] ++ [firstRefresh] ++ [secondRefresh] ++ []) grownDb :=
  rollout_run.step (.elsewhere ⟨rfl, rfl, rfl, rfl, rfl, rfl, rfl, rfl⟩)

end Bifurcation.Panel
