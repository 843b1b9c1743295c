import Bifurcation.Panel.Reconciliation
import Bifurcation.Panel.Usage

/-!
# Published configurations

What administrators and daemons may rely on.

**A publication can be repeated.** A request whose answer was lost is sent again with the same
preview and request key: as long as the preview is kept, the answer is the one of the first
request and nothing changes.

**A configuration can be billed.** The users of a configuration that a daemon was handed stay in
the machine's history, so a usage batch that names only them is never refused for its users, in
any later state. (The latest authorization that goes with a configuration is not remembered.)

Main results: `publish_repeated` and `handed_configuration_billable`.
-/

namespace Bifurcation.Panel

open Javascript

variable {N : Type} {js : Runtime N} {codec : Codec} {vault : ConfigVault N}
  {log : List Refreshed} {db db' : Database}

/-! ## Repeated publications -/

/-- The task that a publication enqueues is the first with its request key. -/
theorem find?_enqueued {machineId revisionId requestKey taskId task : String}
    {policyRevision now : Int}
    (hnew : ∀ x ∈ db.tasks.rows, x.2.payloadHash ≠
      sha256 (codec.taskSpecToBinary (.applyConfig revisionId policyRevision)))
    (h : enqueueTask codec machineId (.applyConfig revisionId policyRevision) requestKey taskId now
      db = .ok (task, db')) :
    ∃ row, db'.tasks.rows.find? (fun x => x.2.machineId = machineId &&
        x.2.requestKey = requestKey) = some (task, row) ∧
      row.payload = codec.taskSpecToBinary (.applyConfig revisionId policyRevision) := by
  obtain ⟨machine, kind, -, hkind, ⟨x, hx, -, -, -, hhash, -⟩ | ⟨rfl, hnone, hkey, -, rfl⟩⟩ :=
    enqueueTask_eq_ok h
  · exact absurd hhash (hnew x hx)
  obtain rfl := kind_applyConfig hkind
  set new := newTask machineId machine.bindingEpoch .applyConfig
    (codec.taskSpecToBinary (.applyConfig revisionId policyRevision)) requestKey now with hrow
  have hrows : (enqueued machineId machine .applyConfig task new now db).tasks.rows =
      (supersede machineId machine.bindingEpoch now db.tasks).rows ++ [(task, new)] :=
    Table.rows_set_of_get?_eq_none (get?_superseded_eq_none hnone) new
  refine ⟨new, ?_, rfl⟩
  rw [hrows, List.find?_append, List.find?_eq_none.2, Option.none_or, List.find?_cons_of_pos]
  · simp [hrow, newTask]
  · intro x hx
    rcases (grows_supersede machineId machine.bindingEpoch now db.tasks).cases hx with
      ⟨old, hmem, hsame⟩ | hfalse
    · rw [hsame.machineId, hsame.requestKey, Bool.and_eq_true, decide_eq_true_eq,
        decide_eq_true_eq]
      exact hkey _ hmem
    · exact hfalse.elim

theorem tasks_refresh {vault : Vault} {fresh : String → String} {now : Int}
    {authorization : AuthorizationLayer} {db₁ : Database}
    (h : refresh vault fresh now db = .ok (authorization, db₁)) : db₁.tasks = db.tasks := by
  obtain ⟨_, _, _, rfl⟩ := refresh_frame h
  rfl

section Repeated

variable {draws draws' : Draws N} {now now' : Int} {machineId createdBy : String}
  {input : PublishInput} {preview : PreviewRow} {authorization : AuthorizationLayer}
  {db₁ later : Database} {taskId : String}

/-- What a first publication leaves of its preview and its revision. -/
theorem stored_of_publishes
    (h : Publishes vault codec draws now machineId input createdBy preview authorization db₁ db db'
      taskId) :
    db'.configPreviews.get? input.previewId =
        some { preview with publishedRevisionId := some draws.id } ∧
      db'.configRevisions.get? draws.id = some (revisionOf preview machineId
        ((configRow machineId db).version + 1) now createdBy authorization) := by
  obtain ⟨tasks, hframe⟩ := enqueueTask_frame h.enqueued
  rw [hframe]
  exact ⟨Table.get?_set_self _ _ _, Table.get?_set_self _ _ _⟩

/-- The answer to a publication that was made before. -/
theorem published_eq_ok {revisionId requestKey : String} {policyRevision : Int} {row : TaskRow}
    {revision : RevisionRow}
    (hfind : db.tasks.rows.find? (fun x => x.2.machineId = machineId &&
      x.2.requestKey = requestKey) = some (taskId, row))
    (hspec : codec.taskSpecFromBinary row.payload = some (.applyConfig revisionId policyRevision))
    (hrevision : db.configRevisions.get? revisionId = some revision) :
    published codec machineId revisionId requestKey db =
      .ok ⟨revisionId, revision.version, taskId⟩ := by
  simp only [published, hfind, hspec, found, ok_bind, ne_eq, not_true_eq_false, failIf, if_false,
    hrevision]
  rfl

theorem publish_eq_published {machine : MachineRow} {revisionId : String}
    {result : ConfigurationPublish} (hmachine : Registered db machineId machine)
    (hfound : Found machineId input.previewId createdBy db preview)
    (hpublished : preview.publishedRevisionId = some revisionId)
    (hanswer : published codec machineId revisionId input.requestKey.1 db = .ok result) :
    publish codec vault draws now machineId input createdBy db = .ok (result, db) := by
  have hfilter : ((db.configPreviews.get? input.previewId).filter fun preview =>
      preview.machineId = machineId && preview.createdBy = createdBy) = some preview := by
    rw [Option.filter_eq_some_iff, hfound.row]
    exact ⟨rfl, by simp [hfound.machine, hfound.creator]⟩
  simp only [publish, get_eq_ok.2 hmachine, ok_bind, hfilter, found, hpublished, hanswer]
  rfl

/-- **A publication can be repeated.** While its preview is kept and the machine is not removed,
the same request by the same administrator is answered like the first one and changes nothing,
whatever the panel did in between. -/
theorem publish_repeated {result : ConfigurationPublish}
    (hcodec : ∀ revisionId policyRevision, codec.taskSpecFromBinary
      (codec.taskSpecToBinary (.applyConfig revisionId policyRevision)) =
        some (.applyConfig revisionId policyRevision))
    (hnew : ∀ row, db.configPreviews.get? input.previewId = some row →
      ∀ x ∈ db.tasks.rows, x.2.payloadHash ≠
        sha256 (codec.taskSpecToBinary (.applyConfig draws.id row.policyRevision)))
    (hfirst : ∀ row, db.configPreviews.get? input.previewId = some row →
      row.publishedRevisionId = none)
    (hrefresh : refresh vault.toVault draws.secrets now db = .ok (authorization, db₁))
    (hpublish : publish codec vault draws now machineId input createdBy db = .ok (result, db'))
    (hrun : ConfigRun js codec vault db' log later)
    (hmachine : ∃ machine, Registered later machineId machine)
    (hkept : later.configPreviews.get? input.previewId =
      db'.configPreviews.get? input.previewId) :
    publish codec vault draws' now' machineId input createdBy later = .ok (result, later) := by
  obtain ⟨preview, hfound, hpublishes, hresult⟩ := publishes_of_first hfirst hrefresh hpublish
  obtain ⟨machine, hregistered⟩ := hmachine
  have hlater := laterConfigs_run hrun
  obtain ⟨row, hfind, hpayload⟩ := find?_enqueued (fun x hx => by
    have hmem : x ∈ db₁.tasks.rows := hx
    rw [tasks_refresh hrefresh] at hmem
    exact hnew preview hfound.row x hmem) hpublishes.enqueued
  -- The task stays the first with its key and asks for the same revision.
  obtain ⟨row', hfind', hsame⟩ := hlater.tasks.find?
    (p := fun task => task.machineId = machineId && task.requestKey = input.requestKey.1)
    (fun _ _ hsame => by rw [hsame.machineId, hsame.requestKey]) hfind
  obtain ⟨hpreview, hrevision⟩ := stored_of_publishes hpublishes
  rw [← hkept] at hpreview
  have hspec : codec.taskSpecFromBinary row'.payload =
      some (.applyConfig draws.id preview.policyRevision) := by
    rw [hsame.payload, hpayload, hcodec]
  have hanswer := published_eq_ok hfind' hspec (hlater.revisions _ _ hrevision)
  rw [hresult]
  exact publish_eq_published hregistered ⟨hpreview, hfound.machine, hfound.creator⟩ rfl hanswer

end Repeated

/-! ## Kept previews -/

/-- The previews are the same. -/
def SamePreviews (db db' : Database) : Prop := db'.configPreviews = db.configPreviews

section Kept

variable {draws : Draws N} {now : Int} {machineId createdBy previewId : String}

theorem previews_refresh {vault : Vault} {fresh : String → String}
    {authorization : AuthorizationLayer}
    (h : refresh vault fresh now db = .ok (authorization, db')) :
    SamePreviews db db' := by
  obtain ⟨_, _, _, rfl⟩ := refresh_frame h
  rfl

/-- A reconciliation keeps every preview. -/
theorem previews_reconcile {fresh : String → String} {draws : String → Draws N}
    {changed : List String}
    (h : reconcile js codec vault fresh draws now db = .ok (changed, db')) :
    SamePreviews db db' := by
  simp only [reconcile, bind_eq_ok, pure_eq_ok, Prod.exists] at h
  obtain ⟨authorization, db₁, hrefresh, hloop⟩ := h
  have hsteps : SamePreviews db₁ db' := by
    rw [← show _ = db' from congrArg Prod.snd hloop]
    refine @reconcile_induction _ js codec vault SamePreviews (fun _ => rfl)
      (fun _ _ _ hab hbc => Eq.trans hbc hab) _ _ _ (fun _ _ _ _ hmachine => ?_) _ _
    obtain ⟨hfalse, -⟩ | ⟨-, _, _, _, _, hrepublishes⟩ := reconcileMachine_eq_ok hmachine
    · cases hfalse
    · obtain ⟨_, rfl⟩ := enqueueTask_frame hrepublishes.enqueued
      rfl
  exact Eq.trans hsteps (previews_refresh hrefresh)

/-- Another preview keeps the earlier ones. -/
theorem previews_preview {expectedVersion : Int} {settings : MachineConfigurationInput N}
    {result : ConfigurationPreview} (hne : previewId ≠ draws.id)
    (h : preview js vault draws now machineId expectedVersion settings createdBy db =
      .ok (result, db')) : db'.configPreviews.get? previewId = db.configPreviews.get? previewId := by
  obtain ⟨authorization, db₁, hrefresh, -, -, rfl⟩ := preview_eq_ok h
  have hsame : SamePreviews db db₁ := previews_refresh hrefresh
  rw [← show db₁.configPreviews = db.configPreviews from hsame]
  exact Table.get?_set_of_ne _ _ hne

/-- A publication keeps the other previews. -/
theorem previews_publish {input : PublishInput} {result : ConfigurationPublish}
    (hne : previewId ≠ input.previewId)
    (h : publish codec vault draws now machineId input createdBy db = .ok (result, db')) :
    db'.configPreviews.get? previewId = db.configPreviews.get? previewId := by
  obtain ⟨preview, -, ⟨_, -, rfl, -⟩ | ⟨-, authorization, db₁, hpublishes, -⟩⟩ := publish_eq_ok h
  · rfl
  · obtain ⟨_, rfl⟩ := enqueueTask_frame hpublishes.enqueued
    have hsame : SamePreviews db db₁ := previews_refresh hpublishes.refreshed
    rw [← show db₁.configPreviews = db.configPreviews from hsame]
    exact Table.get?_set_of_ne _ _ hne

end Kept

/-! ## Another rollout -/

/-- The panel after an account was added and the machine reconciled. -/
def reconciledDb : Database :=
  after grownDb (reconcile decimalRuntime rolloutCodec rolloutVault (fun _ => "first")
    reconcileDraws 0 grownDb)

/-- The administrator publishes again. -/
def repreviewedDb : Database :=
  after reconciledDb (preview decimalRuntime rolloutVault (rolloutDraws "p2" "") 0 "m" 2
    nodeSettings "admin" reconciledDb)

theorem nextKey_isUuid : isUuid "00000000-0000-4000-8000-000000000002" = true := by
  decide +kernel

def nextInput : PublishInput where
  previewId := "p2"
  expectedVersion := 2
  requestKey := ⟨"00000000-0000-4000-8000-000000000002", nextKey_isUuid⟩

def republishedDb : Database :=
  after repreviewedDb (publish rolloutCodec rolloutVault (rolloutDraws "r2" "t2") 0 "m" nextInput
    "admin" repreviewedDb)

/-- Both calls and the reconciliation succeed, and the second target is new. -/
theorem republished_computed :
    ((reconcile decimalRuntime rolloutCodec rolloutVault (fun _ => "first") reconcileDraws 0
        grownDb).toOption.isSome = true ∧
      (preview decimalRuntime rolloutVault (rolloutDraws "p2" "") 0 "m" 2 nodeSettings "admin"
        reconciledDb).toOption.isSome = true ∧
      (publish rolloutCodec rolloutVault (rolloutDraws "r2" "t2") 0 "m" nextInput "admin"
        repreviewedDb).toOption.isSome = true) ∧
    ((refresh plainVault (fun _ => "first") 0 grownDb).toOption.isSome = true ∧
      (refresh plainVault (fun _ => "first") 0 reconciledDb).toOption.isSome = true ∧
      (refresh plainVault (fun _ => "first") 0 repreviewedDb).toOption.isSome = true) ∧
    ((repreviewedDb.configPreviews.get? "p2").all fun row => row.publishedRevisionId.isNone &&
      repreviewedDb.tasks.rows.all fun x => x.2.payloadHash ≠
        sha256 (rolloutCodec.taskSpecToBinary (.applyConfig "r2" row.policyRevision))) = true ∧
    (republishedDb.machines.get? "m").any (fun machine => machine.removedAt.isNone) = true := by
  decide +kernel

/-- A reconciliation and another publication after the first one, whose preview is kept. -/
theorem republished_run :
    (∃ log, ConfigRun decimalRuntime rolloutCodec rolloutVault publishedDb log republishedDb) ∧
      republishedDb.configPreviews.get? "p" = publishedDb.configPreviews.get? "p" := by
  obtain ⟨⟨hreconciled, hpreviewed, hpublished⟩, ⟨hgrown, hrefreshed, hrepreviewed⟩, hnew, -⟩ :=
    republished_computed
  obtain ⟨changed, hreconcile⟩ := @eq_ok_after _ grownDb _ hreconciled
  obtain ⟨_, hpreview⟩ := @eq_ok_after _ reconciledDb _ hpreviewed
  obtain ⟨_, hpublish⟩ := @eq_ok_after _ repreviewedDb _ hpublished
  have hsame : SamePreviews grownDb reconciledDb := previews_reconcile hreconcile
  have hfirstKept : reconciledDb.configPreviews.get? "p" = publishedDb.configPreviews.get? "p" :=
    congrArg (fun previews => Table.get? previews "p") hsame
  have hpreviewKept : repreviewedDb.configPreviews.get? "p" =
      reconciledDb.configPreviews.get? "p" := previews_preview (by decide) hpreview
  have hkept : republishedDb.configPreviews.get? "p" = repreviewedDb.configPreviews.get? "p" :=
    previews_publish (by decide) hpublish
  have hadded : ConfigRun decimalRuntime rolloutCodec rolloutVault publishedDb ([] ++ [])
      grownDb := ConfigRun.start.step (.elsewhere ⟨rfl, rfl, rfl, rfl, rfl, rfl, rfl, rfl⟩)
  have hfirst : ConfigRun decimalRuntime rolloutCodec rolloutVault publishedDb _ reconciledDb :=
    hadded.step (.reconciled (fun _ => (opens_rolloutDraws _ _).rendered)
      (refresh_eq_ok_after hgrown) hreconcile)
  have hsecond : ConfigRun decimalRuntime rolloutCodec rolloutVault publishedDb _ repreviewedDb :=
    hfirst.step (.previewed (opens_rolloutDraws "p2" "") (refresh_eq_ok_after hrefreshed) hpreview)
  have hrow : ∀ row, repreviewedDb.configPreviews.get? nextInput.previewId = some row →
      row.publishedRevisionId = none ∧ ∀ x ∈ repreviewedDb.tasks.rows, x.2.payloadHash ≠
        sha256 (rolloutCodec.taskSpecToBinary
          (.applyConfig (rolloutDraws "r2" "t2").id row.policyRevision)) := by
    intro row hrow
    have hfacts := (Option.all_eq_true _ _).1 hnew row hrow
    rw [Bool.and_eq_true, List.all_eq_true] at hfacts
    exact ⟨Option.isNone_iff_eq_none.1 hfacts.1, fun x hx => of_decide_eq_true (hfacts.2 x hx)⟩
  exact ⟨⟨_, hsecond.step (.published (fun row h => (hrow row h).2) (fun row h => (hrow row h).1)
    (refresh_eq_ok_after hrepreviewed) hpublish)⟩,
    hkept.trans (hpreviewKept.trans hfirstKept)⟩

/-- The first answer again, after an account was added, the machine was reconciled and the
administrator has published once more. -/
theorem rollout_repeated : ∃ result,
    publish rolloutCodec rolloutVault (rolloutDraws "r" "t") 0 "m" rolloutInput "admin"
      previewedDb = .ok (result, publishedDb) ∧
    publish rolloutCodec rolloutVault (rolloutDraws "x" "y") 1 "m" rolloutInput "admin"
      republishedDb = .ok (result, republishedDb) := by
  obtain ⟨result, hpublish⟩ := rollout_publish
  obtain ⟨⟨log, hrun⟩, hkept⟩ := republished_run
  obtain ⟨-, -, -, hmachine⟩ := republished_computed
  obtain ⟨machine, hget, hactive⟩ := (Option.any_eq_true _ _).1 hmachine
  exact ⟨result, hpublish, publish_repeated rolloutCodec_target rollout_first.1 rollout_first.2
    rollout_refresh hpublish hrun ⟨machine, hget, Option.isNone_iff_eq_none.1 hactive⟩ hkept⟩

/-! ## Handed out configurations -/

/-- What the answer to a request for a configuration holds, and the refresh it made. -/
theorem getConfig_eq_ok {fresh : String → String} {now : Int} {machineId revisionId : String}
    {response : ConfigResponse}
    (h : getConfig js vault fresh now machineId false revisionId db = (.ok response, db')) :
    ∃ authorization, refresh vault.toVault fresh now db = .ok (authorization, db') ∧
      ∃ row text, db'.configRevisions.get? response.revisionId = some row ∧
        row.machineId = machineId ∧ vault.renderedOf row.renderedCiphertext = some text ∧
        response.configJson = bufferFrom text ∧ response.configSha256 = row.digest ∧
        response.policyRevision = row.policyRevision := by
  simp only [getConfig] at h
  split at h
  · cases h
  · rename_i latest db₁ hrefreshed
    obtain ⟨hresponse, rfl⟩ := Prod.mk.inj h
    simp only [bind_eq_ok, failIf_eq_ok, exists_const] at hrefreshed
    obtain ⟨-, -, -, hrefresh⟩ := hrefreshed
    refine ⟨latest, hrefresh, ?_⟩
    simp only [configResponse, Bool.false_eq_true, if_false, bind_eq_ok, found_eq_ok, pure_eq_ok,
      Option.filter_eq_some_iff, Bool.and_eq_true, decide_eq_true_eq, Option.bind_eq_some_iff,
      Option.map_eq_some_iff] at hresponse
    obtain ⟨-, ⟨⟨id, -, row, hrow, rfl⟩, -, hid⟩, text, htext, rfl⟩ := hresponse
    exact ⟨row, text, hrow, hid, htext, rfl, rfl, rfl⟩

/-- The refusal of a user that was never remembered. -/
def neverAuthorized : PanelError :=
  invalidUsage "usage user has never been authorized on this machine"

/-- The computation does not refuse a user. -/
abbrev Bills {α : Type} (x : Except PanelError α) : Prop := Throws (· ≠ neverAuthorized) x

section Bills

variable {vault : Vault} {fresh : String → String} {machineId : String} {row : MachineRow}
  {request : ReportUsageRequest} {now : Int} {batch : UsageBatch}

theorem bills_assertInstallation (installation : Option Installation) :
    Bills (assertInstallation row installation false) := by
  refine Throws.bind (throws_found (by decide)) fun identity _ => ?_
  refine Throws.bind ?_ fun epoch _ => ?_
  · exact Throws.bind (throws_failIf (by decide)) fun _ _ => throws_ok _
  · cases row.installationId with
    | none =>
      refine Throws.bind (throws_failIf (by decide)) fun _ _ => ?_
      exact Throws.bind (throws_failIf (by decide)) fun _ _ => throws_ok _
    | some installed =>
      refine Throws.bind (throws_failIf (by decide)) fun _ _ => ?_
      exact Throws.bind (throws_failIf (by decide)) fun _ _ => throws_ok _

theorem bills_checkRequest : Bills (checkRequest request) := by
  refine Throws.bind (throws_failIf (by decide)) fun _ _ => ?_
  refine Throws.bind (throws_failIf (by decide)) fun _ _ => ?_
  refine Throws.bind (throws_failIf (by decide)) fun _ _ => ?_
  exact throws_failIf (by decide)

theorem bills_checkDelta (delta : UsageDelta) : Bills (checkDelta now delta) := by
  refine Throws.bind (throws_failIf (by decide)) fun _ _ => ?_
  refine Throws.bind (throws_failIf (by decide)) fun _ _ => ?_
  exact throws_failIf (by decide)

theorem bills_addGrain (delta : UsageDelta) (upload download : List Share)
    (state : ℕ × Database) (grain : Grain) :
    Bills (addGrain machineId now delta upload download state grain) := by
  refine Throws.bind (throws_failIf (by decide)) fun _ _ => ?_
  refine Throws.bind (throws_foldlM fun db bucket _ => ?_) fun _ _ => throws_ok _
  refine Throws.bind (throws_failIf (by decide)) fun _ _ => ?_
  exact Throws.bind (throws_found (by decide)) fun _ _ => throws_ok _

theorem bills_addDelta {known : List String} {delta : UsageDelta} (hknown : delta.userId ∈ known)
    (state : ℕ × Database) : Bills (addDelta machineId known now state delta) := by
  refine Throws.bind (fun e he => ?_) fun _ _ => ?_
  · exact absurd hknown (failIf_eq_error.1 he).1
  refine Throws.bind (bills_checkDelta delta) fun _ _ => ?_
  refine Throws.bind (throws_found (by decide)) fun _ _ => ?_
  refine Throws.bind (throws_found (by decide)) fun _ _ => ?_
  exact throws_foldlM fun _ _ _ => bills_addGrain delta _ _ _ _

theorem bills_refresh (db : Database) : Bills (refresh vault fresh now db) := by
  refine Throws.bind (throws_foldlM fun state userId _ => ?_) fun _ _ => ?_
  · refine Throws.bind ?_ fun credentials _ => ?_
    · refine Throws.bind (throws_found (by decide)) fun _ _ => ?_
      exact Throws.bind (throws_found (by decide)) fun _ _ => throws_ok _
    · refine Throws.bind ?_ fun quota _ => ?_
      · refine Throws.bind (throws_found (by decide)) fun _ _ => ?_
        exact Throws.bind (throws_failIf (by decide)) fun _ _ => throws_ok _
      · dsimp only
        split_ifs
        · exact throws_ok _
        · exact throws_ok _
  · exact Throws.bind (throws_failIf (by decide)) fun _ _ => throws_ok _

/-- **A report that names remembered users only** is not refused for its users. -/
theorem bills_reportUsage (hbatch : codec.usageBatchFromBinary request.payload = some batch)
    (hknown : ∀ delta ∈ batch.deltas, delta.userId ∈ knownUsers machineId db) :
    Bills (reportUsage vault fresh codec machineId row request now db) := by
  refine Throws.bind (bills_assertInstallation _) fun identity _ => ?_
  refine Throws.bind bills_checkRequest fun _ _ => ?_
  dsimp only
  split_ifs
  · exact Throws.bind (throws_failIf (by decide)) fun _ _ => throws_ok _
  · exact throws_ok _
  · refine Throws.bind ?_ fun _ _ => throws_ok _
    refine Throws.bind (throws_found (by decide)) fun b hb => ?_
    rw [found_eq_ok, hbatch] at hb
    obtain rfl := Option.some.inj hb
    refine Throws.bind (throws_failIf (by decide)) fun _ _ => ?_
    refine Throws.bind ?_ fun _ _ => ?_
    · refine Throws.bind (throws_foldlM fun state delta hdelta => ?_) fun _ _ => throws_ok _
      exact bills_addDelta (hknown delta hdelta) state
    · exact Throws.bind (bills_refresh _) fun _ _ => throws_ok _

end Bills

theorem mem_knownUsers {machineId userId : String} :
    userId ∈ knownUsers machineId db ↔
      (db.machineUserHistory.get? (machineId, userId)).isSome = true := by
  simp only [knownUsers, List.mem_map, List.mem_filter, decide_eq_true_eq,
    Option.isSome_iff_exists]
  constructor
  · rintro ⟨x, ⟨hx, rfl⟩, rfl⟩
    exact ⟨x.2, Table.get?_of_mem hx⟩
  · rintro ⟨u, hu⟩
    exact ⟨((machineId, userId), u), ⟨Table.mem_rows_iff.2 hu, rfl⟩, rfl⟩

/-- **A configuration that was handed out can be billed.** In any run of the panel from the start
whose fingerprints do not collide, a daemon that asks for a configuration is given a revision of
its machine, as the settings stored with it render to under an earlier refresh, with its digest and
its policy revision; and in every later state a usage batch of the machine that names only users
of that refresh is never refused for its users. -/
theorem handed_configuration_billable {fresh : String → String} {now : Int}
    {machineId revisionId : String} {response : ConfigResponse}
    (h : ConfigRun js codec vault Database.empty log db) (hhash : CollisionFree log)
    (hanswer : getConfig js vault fresh now machineId false revisionId db = (.ok response, db')) :
    ∃ row, db.configRevisions.get? response.revisionId = some row ∧ row.machineId = machineId ∧
      ∃ record ∈ log, ∃ settings, vault.settingsOf row.settingsCiphertext = some settings ∧
      response.configJson = jsonBytes js (renderServer js settings record.authorization) ∧
      response.configSha256 = sha256 response.configJson ∧
      response.policyRevision = record.revision ∧
      ∀ log' later, ConfigRun js codec vault db' log' later →
        ∀ (fresh' : String → String) (machine : MachineRow) (request : ReportUsageRequest)
          (now' : Int) (batch : UsageBatch), codec.usageBatchFromBinary request.payload = some batch →
          (∀ delta ∈ batch.deltas, delta.userId ∈ userIds record.authorization) →
          reportUsage vault.toVault fresh' codec machineId machine request now' later ≠
            .error neverAuthorized := by
  obtain ⟨authorization, hrefresh, row, text, hrow, rfl, htext, hjson, hdigest, hpolicy⟩ :=
    getConfig_eq_ok hanswer
  have hinv := configInv_of_run h hhash
  obtain ⟨_, _, _, rfl⟩ := refresh_frame hrefresh
  obtain ⟨record, hrecord, hpublished⟩ := hinv.revisions (response.revisionId, row)
    (Table.mem_rows_iff.2 hrow)
  obtain ⟨settings, hsettings, hrendered, hcontent⟩ := hpublished.rendered.text
  obtain rfl := Option.some.inj (htext.symm.trans hrendered)
  refine ⟨row, hrow, rfl, record, hrecord, settings, hsettings, hjson, ?_,
    hpolicy.trans hpublished.rendered.policy, ?_⟩
  · rw [hdigest, hjson]
    exact hcontent
  · intro log' later hrun fresh' machine request now' batch hbatch husers hrefused
    refine bills_reportUsage hbatch (fun delta hdelta => ?_) _ hrefused rfl
    refine mem_knownUsers.2 ((laterConfigs_run hrun).history _ ?_)
    refine hpublished.remembered _ ?_
    rw [hpublished.users]
    exact husers delta hdelta

/-- The machine asks for its configuration and reports usage of the account it is for. -/
theorem rollout_billable : ∃ response db',
    getConfig decimalRuntime rolloutVault (fun _ => "first") 0 "m" false "" publishedDb =
      (.ok response, db') ∧ response.configSha256 = sha256 response.configJson ∧
    ∀ row request, reportUsage rolloutVault.toVault id rolloutCodec "m" row request 60000 db' ≠
      .error neverAuthorized := by
  have hsome : (getConfig decimalRuntime rolloutVault (fun _ => "first") 0 "m" false ""
      publishedDb).1.toOption.isSome = true := by decide +kernel
  obtain ⟨response, hresponse⟩ : ∃ response, getConfig decimalRuntime rolloutVault
      (fun _ => "first") 0 "m" false "" publishedDb = (.ok response, (getConfig decimalRuntime
        rolloutVault (fun _ => "first") 0 "m" false "" publishedDb).2) := by
    cases hanswer : getConfig decimalRuntime rolloutVault (fun _ => "first") 0 "m" false ""
      publishedDb with
    | mk answer db =>
      rw [hanswer] at hsome
      cases answer with
      | error e => cases hsome
      | ok response => exact ⟨response, rfl⟩
  obtain ⟨_, -, -, record, hrecord, -, -, -, hdigest, -, hbills⟩ :=
    handed_configuration_billable rollout_run rollout_collisionFree hresponse
  refine ⟨response, _, hresponse, hdigest, fun row request => ?_⟩
  refine hbills _ _ .start id row request 60000 _ rfl fun delta hdelta => ?_
  obtain ⟨-, -, -, hgrants, -⟩ := rollout_computed
  rw [(hgrants record hrecord).2, List.mem_singleton]
  rw [List.mem_singleton.1 hdelta]

end Bifurcation.Panel
