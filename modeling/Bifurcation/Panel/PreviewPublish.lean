import Bifurcation.Panel.SubscriptionIsolation

/-!
# What is published is what was previewed

Every write of a subscription names the version it was made against and leaves the next one. A
preview stores the version it was rendered from, so when it is published for the first time nothing
was written since, and the draft that is rendered again is the draft that was previewed.

Publishing a published preview writes nothing and checks no version: such a call may succeed
between a preview and its publication.
-/

namespace Bifurcation.Panel.Profiles

open SubscriptionTables Javascript

/-! ## Writes -/

/-- The version a request names. -/
def Request.expected : Request → Option Int
  | .save _ _ expected _ _ => some expected
  | .publish _ _ expected _ => some expected
  | .update _ _ expected _ _ => some expected
  | _ => none

/-- A `save`, an `update`, or the first `publish` of a preview, on the subscription `id`. -/
def Request.Writes (db : SubscriptionTables) (id : String) : Request → Prop
  | .save _ id' _ _ _ => id' = id
  | .update _ id' _ _ _ => id' = id
  | .publish _ id' _ previewId =>
    id' = id ∧ ∀ p, db.subscriptionPreviews.get? previewId = some p → p.published = false
  | _ => False

/-- The request takes or publishes this preview. -/
def Request.Previews (previewId : String) : Request → Prop
  | .preview _ _ _ p => p.1 = previewId
  | .publish _ _ _ p => p = previewId
  | _ => False

section Runs

variable {N : Type}

/-- Committed requests, one after another. -/
def commits (site : Site N) (db : SubscriptionTables) (events : List (Event N)) :
    Except Thrown SubscriptionTables :=
  events.foldlM (fun db event => commit site event.snapshots event.now db event.request) db

variable {site : Site N} {snapshots : Snapshots N} {now : Int} {db db' : SubscriptionTables}
  {id : String} {row : SubscriptionRow}

/-- A stored row after a write of a row. -/
theorem writeRow_row {id' : String} {new : SubscriptionRow}
    (hrow : db.subscriptions.get? id = some row) (hwrite : db.writeRow id' new = .ok db') :
    (id' = id ∧ db'.subscriptions.get? id = some new) ∨
      (id' ≠ id ∧ db'.subscriptions.get? id = some row) := by
  obtain ⟨-, hsubs, -, -⟩ := writeRow_eq_ok hwrite
  by_cases hid : id' = id
  · exact .inl ⟨hid, by rw [hsubs, hid, Table.get?_set, if_pos rfl]⟩
  · exact .inr ⟨hid, by rw [hsubs, Table.get?_set_of_ne _ _ (Ne.symm hid), hrow]⟩

/-- A request wrote the row against its version, or kept its version and its draft. -/
inductive Moved (db : SubscriptionTables) (id : String) (request : Request)
    (row row' : SubscriptionRow) : Prop
  | written (hwrites : request.Writes db id) (hexpected : request.expected = some row.version)
      (howner : row'.userId = row.userId) (hversion : row'.version = row.version + 1)
  | kept (hnot : ¬ request.Writes db id) (howner : row'.userId = row.userId)
      (hversion : row'.version = row.version) (hdraft : row'.draft = row.draft)

/-- A row is rewritten with its version and its draft. -/
theorem rewrite_kept {id' : String} {old new : SubscriptionRow} {db₀ : SubscriptionTables}
    {request : Request} (hrow : db.subscriptions.get? id = some row)
    (hold : db.subscriptions.get? id' = some old) (hwrite : db.writeRow id' new = .ok db')
    (hnot : ¬ request.Writes db₀ id) (howner : new.userId = old.userId)
    (hversion : new.version = old.version) (hdraft : new.draft = old.draft) :
    ∃ row', db'.subscriptions.get? id = some row' ∧ Moved db₀ id request row row' := by
  rcases writeRow_row hrow hwrite with ⟨hid, hget⟩ | ⟨-, hget⟩
  · rw [hid, hrow] at hold
    obtain rfl := Option.some.inj hold
    exact ⟨new, hget, .kept hnot howner hversion hdraft⟩
  · exact ⟨row, hget, .kept hnot rfl rfl rfl⟩

/-- A row is written against its version. -/
theorem write_moved {userId id' : String} {old new : SubscriptionRow} {request : Request}
    (hrow : db.subscriptions.get? id = some row) (hold : getRow db userId id' = .ok old)
    (hwrite : db.writeRow id' new = .ok db') (hexpected : request.expected = some old.version)
    (hwrites : id' = id → request.Writes db id) (hother : id' ≠ id → ¬ request.Writes db id)
    (howner : new.userId = old.userId) (hversion : new.version = old.version + 1) :
    ∃ row', db'.subscriptions.get? id = some row' ∧ Moved db id request row row' := by
  rcases writeRow_row hrow hwrite with ⟨hid, hget⟩ | ⟨hid, hget⟩
  · have hsame := (getRow_eq_ok.1 hold).1
    rw [hid, hrow] at hsame
    obtain rfl := Option.some.inj hsame
    exact ⟨new, hget, .written (hwrites hid) hexpected howner hversion⟩
  · exact ⟨row, hget, .kept (hother hid) rfl rfl rfl⟩

/-- Every committed request moves every row. -/
theorem commit_moved {request : Request} (hrow : db.subscriptions.get? id = some row)
    (h : commit site snapshots now db request = .ok db') :
    ∃ row', db'.subscriptions.get? id = some row' ∧ Moved db id request row row' := by
  cases commit_effect h with
  | initialized _ hwrite =>
    obtain ⟨-, -, hsubs, -⟩ := writeToken_eq_ok hwrite
    exact ⟨row, hsubs.symm ▸ hrow, .kept nofun rfl rfl rfl⟩
  | alreadyInitialized => exact ⟨row, hrow, .kept nofun rfl rfl rfl⟩
  | listed hensured => exact ⟨row, hensured.kept hrow, .kept nofun rfl rfl rfl⟩
  | createdBefore hensured => exact ⟨row, hensured.kept hrow, .kept nofun rfl rfl rfl⟩
  | created hensured hnone _ _ _ hwrite =>
    have hrow' := hensured.kept hrow
    rcases writeRow_row hrow' hwrite with ⟨hid, -⟩ | ⟨-, hget⟩
    · rw [← hid, hnone] at hrow'
      cases hrow'
    · exact ⟨row, hget, .kept nofun rfl rfl rfl⟩
  | saved hold hversion hwrite =>
    refine write_moved hrow hold hwrite ?_ ?_ ?_ rfl rfl
    · exact congrArg some hversion.symm
    · exact fun hid => hid
    · exact fun hid => hid
  | previewed => exact ⟨row, hrow, .kept nofun rfl rfl rfl⟩
  | publishedBefore hpreview _ hpublished =>
    refine ⟨row, hrow, .kept (fun hwrites => ?_) rfl rfl rfl⟩
    have hfresh := hwrites.2 _ hpreview
    rw [hpublished] at hfresh
    cases hfresh
  | published hold hversion hpreview _ hpublished _ _ _ _ hwrite =>
    simp only [publishRow, bind_eq_ok, pure_eq_ok] at hwrite
    obtain ⟨db₁, hwrite, rfl⟩ := hwrite
    change ∃ row', db₁.subscriptions.get? id = some row' ∧ Moved db id _ row row'
    refine write_moved hrow hold hwrite (congrArg some hversion.symm) ?_ ?_ rfl rfl
    · intro hid
      refine ⟨hid, fun p hp => ?_⟩
      obtain rfl := Option.some.inj (hpreview.symm.trans hp)
      exact hpublished
    · exact fun hid hwrites => hid hwrites.1
  | @updated userId id' expected action token _ db₁ _ _ hold hversion hwrite hsync =>
    have howner : ∀ old token, (updatedRow old action token now).userId = old.userId := by
      intro old token
      cases action <;> rfl
    have hnext : ∀ old token, (updatedRow old action token now).version = old.version + 1 := by
      intro old token
      cases action <;> rfl
    have hwritten : ∃ row', db₁.subscriptions.get? id = some row' ∧
        Moved db id (.update userId id' expected action token) row row' := by
      refine write_moved hrow hold hwrite ?_ ?_ ?_ (howner _ _) (hnext _ _)
      · exact congrArg some hversion.symm
      · exact fun hid => hid
      · exact fun hid => hid
    obtain ⟨row', hget, hmoved⟩ := hwritten
    refine ⟨row', ?_, hmoved⟩
    unfold syncTokenRow at hsync
    split_ifs at hsync
    · obtain ⟨-, -, hsubs, -⟩ := writeToken_eq_ok hsync
      exact hsubs.symm ▸ hget
    · exact Except.ok.inj hsync ▸ hget
  | notServed hensured => exact ⟨row, hensured.kept hrow, .kept nofun rfl rfl rfl⟩
  | served hensured hold hwrite =>
    exact rewrite_kept (hensured.kept hrow) hold hwrite nofun rfl rfl rfl
  | replaced _ hwrite =>
    obtain ⟨-, -, hsubs, -⟩ := writeToken_eq_ok hwrite
    exact ⟨row, hsubs.symm ▸ hrow, .kept nofun rfl rfl rfl⟩
  | synced _ hold hwrite => exact rewrite_kept hrow hold hwrite nofun rfl rfl rfl
  | nothingToSync => exact ⟨row, hrow, .kept nofun rfl rfl rfl⟩

/-! ## Previews -/

/-- A stored preview was stored before every request that is not about it. -/
theorem commit_preview {request : Request} {previewId : String}
    (hnot : ¬ request.Previews previewId) (h : commit site snapshots now db request = .ok db')
    {p : SubscriptionPreviewRow} (hp : db'.subscriptionPreviews.get? previewId = some p) :
    db.subscriptionPreviews.get? previewId = some p := by
  have hensured : ∀ {u : String} {db db' : SubscriptionTables}, Ensured u db db' →
      db'.subscriptionPreviews = db.subscriptionPreviews := by
    intro u db db' hensured
    cases hensured with
    | same => rfl
    | added _ _ hwrite => exact (writeRow_eq_ok hwrite).2.2.2
  have hrow : ∀ {i : String} {new : SubscriptionRow} {db db' : SubscriptionTables},
      db.writeRow i new = .ok db' → db'.subscriptionPreviews = db.subscriptionPreviews :=
    fun hwrite => (writeRow_eq_ok hwrite).2.2.2
  cases commit_effect h with
  | initialized _ hwrite => exact (writeToken_eq_ok hwrite).2.2.2 ▸ hp
  | alreadyInitialized => exact hp
  | listed h => exact hensured h ▸ hp
  | createdBefore h => exact hensured h ▸ hp
  | created h _ _ _ _ hwrite => exact (hrow hwrite).trans (hensured h) ▸ hp
  | saved _ _ hwrite => exact hrow hwrite ▸ hp
  | previewed _ _ _ _ hprevious _ => exact hprevious previewId (Ne.symm hnot) p hp
  | publishedBefore => exact hp
  | published _ _ _ _ _ _ _ _ _ hwrite =>
    simp only [publishRow, bind_eq_ok, pure_eq_ok] at hwrite
    obtain ⟨db₁, hwrite, rfl⟩ := hwrite
    have hset := hp
    simp only [withPreviews] at hset
    rw [Table.get?_set_of_ne _ _ (Ne.symm hnot)] at hset
    exact hrow hwrite ▸ hset
  | updated _ _ hwrite hsync =>
    unfold syncTokenRow at hsync
    split_ifs at hsync
    · exact ((writeToken_eq_ok hsync).2.2.2.trans (hrow hwrite)) ▸ hp
    · rw [← Except.ok.inj hsync] at hp
      exact hrow hwrite ▸ hp
  | notServed h => exact hensured h ▸ hp
  | served h _ hwrite => exact (hrow hwrite).trans (hensured h) ▸ hp
  | replaced _ hwrite => exact (writeToken_eq_ok hwrite).2.2.2 ▸ hp
  | synced _ _ hwrite => exact hrow hwrite ▸ hp
  | nothingToSync => exact hp

theorem commits_preview {events : List (Event N)} {previewId : String}
    (hnot : ∀ event ∈ events, ¬ event.request.Previews previewId)
    (h : commits site db events = .ok db') {p : SubscriptionPreviewRow}
    (hp : db'.subscriptionPreviews.get? previewId = some p) :
    db.subscriptionPreviews.get? previewId = some p := by
  induction events generalizing db with
  | nil => exact Except.ok.inj h ▸ hp
  | cons event events ih =>
    obtain ⟨db₁, hcommit, hrest⟩ := bind_eq_ok.1 h
    have hp₁ := ih (fun e he => hnot e (List.mem_cons_of_mem _ he)) hrest
    exact commit_preview (hnot event List.mem_cons_self) hcommit hp₁

/-! ## Versions -/

/-- No request of a run writes the subscription `id`. -/
def Quiet (site : Site N) (id : String) (db : SubscriptionTables) (events : List (Event N)) :
    Prop :=
  ∀ before event after db₁, events = before ++ event :: after →
    commits site db before = .ok db₁ → ¬ event.request.Writes db₁ id

/-- Versions grow over a run, strictly when something in it was written. -/
theorem commits_version {events : List (Event N)} (hrow : db.subscriptions.get? id = some row)
    (h : commits site db events = .ok db') :
    ∃ row', db'.subscriptions.get? id = some row' ∧ row'.userId = row.userId ∧
      row.version ≤ row'.version ∧
      (row'.version = row.version → row'.draft = row.draft ∧ Quiet site id db events) := by
  induction events generalizing db row with
  | nil =>
    obtain rfl := Except.ok.inj h
    refine ⟨row, hrow, rfl, le_refl _, fun _ => ⟨rfl, ?_⟩⟩
    intro before event after db₁ hsplit
    simp at hsplit
  | cons event events ih =>
    obtain ⟨db₁, hcommit, hrest⟩ := bind_eq_ok.1 h
    obtain ⟨row₁, hrow₁, hmoved⟩ := commit_moved hrow hcommit
    obtain ⟨row', hrow', howner, hle, hsame⟩ := ih hrow₁ hrest
    cases hmoved with
    | written _ _ howner₁ hversion =>
      refine ⟨row', hrow', howner.trans howner₁, by omega, fun heq => ?_⟩
      omega
    | kept hnot howner₁ hversion hdraft =>
      refine ⟨row', hrow', howner.trans howner₁, by omega, fun heq => ?_⟩
      obtain ⟨hdraft', hquiet⟩ := hsame (heq.trans hversion.symm)
      refine ⟨hdraft'.trans hdraft, ?_⟩
      intro before e after db₂ hsplit hbefore
      cases before with
      | nil =>
        obtain ⟨rfl, -⟩ := List.cons.inj hsplit
        obtain rfl := Except.ok.inj hbefore
        exact hnot
      | cons first before =>
        obtain ⟨hfirst, htail⟩ := List.cons.inj hsplit
        subst hfirst
        obtain ⟨db₁', hcommit', hbefore⟩ := bind_eq_ok.1 hbefore
        obtain rfl := Except.ok.inj (hcommit.symm.trans hcommit')
        exact hquiet before e after db₂ htail hbefore

/-! ## Publication -/

/-- What `preview` answers and stores. -/
theorem preview_eq_ok {userId : String} {expected : Int} {previewId : NewId} {dto : PreviewDto}
    (h : preview site snapshots userId id expected previewId now db = .ok (dto, db')) :
    ∃ row, getRow db userId id = .ok row ∧ db'.subscriptions = db.subscriptions ∧
      db'.subscriptionPreviews.get? previewId.1 = some
        { subscriptionId := id
          version := row.version
          digest := dto.digest
          expiresAt := dto.expiresAt } ∧
      dto.digest = digestOf dto.rendered := by
  simp only [preview, bind_eq_ok, failIf_eq_ok, found_eq_ok, pure_eq_ok, exists_const,
    Prod.mk.injEq] at h
  obtain ⟨row, hrow, _, -, -, snapshot, -, rendered, -, previews, hinsert, rfl, rfl⟩ := h
  obtain ⟨-, rfl⟩ := Table.insert?_eq_some.1 hinsert
  exact ⟨row, hrow, rfl, by simp [withPreviews], rfl⟩

/-- A draft that renders belongs to an active account. -/
theorem active_of_renderSubscription {js : Runtime N} {draft : SubscriptionDraft}
    {snapshot : Snapshot N} {rendered : Rendered}
    (h : renderSubscription js draft snapshot = .ok rendered) : snapshot.active = true := by
  simp only [renderSubscription, bind_eq_ok, renderDocument_eq] at h
  obtain ⟨_, ⟨prepared, hprepare, -⟩, -⟩ := h
  simp only [prepare, bind_eq_ok, failIf_eq_ok, exists_const] at hprepare
  have hblocked := hprepare.2.1
  cases hactive : snapshot.active with
  | true => rfl
  | false => simp [Snapshot.blocked, hactive] at hblocked

/-- The subscription `id` was published from its draft, which rendered to `current`, and a client
with its token is served that text at the same snapshot. -/
def PublishedAs (site : Site N) (snapshots : Snapshots N) (db db' : SubscriptionTables)
    (id : String) (current : Rendered) : Prop :=
  ∃ row snapshot row', db.subscriptions.get? id = some row ∧
    snapshots row.userId = .ok snapshot ∧
    renderSubscription site.js row.draft snapshot = .ok current ∧
    db'.subscriptions.get? id = some row' ∧ row'.published = some row.draft ∧
    (row'.enabled = true → ∀ token, isSubscriptionToken token = true →
      tokenHash token = row'.tokenHash →
        answer site snapshots token db' = .ok current.configJson)

/-- The first `publish` of a stored preview. -/
theorem publish_first {userId previewId : String} {expected : Int} {profile : ProfileDto}
    {p : SubscriptionPreviewRow} (hp : db.subscriptionPreviews.get? previewId = some p)
    (hfresh : p.published = false)
    (h : publish site snapshots userId id expected previewId now db = .ok (profile, db')) :
    ∃ row current, db.subscriptions.get? id = some row ∧ p.version = row.version ∧
      digestOf current = p.digest ∧ PublishedAs site snapshots db db' id current := by
  have heffect := publish_effect h
  cases heffect with
  | publishedBefore hpreview _ hpublished =>
    obtain rfl := Option.some.inj (hp.symm.trans hpreview)
    rw [hfresh] at hpublished
    cases hpublished
  | @published _ _ _ _ _ _ row preview snapshot current hrow hversion hpreview hof hpublished hsame
      hsnapshot hcurrent hdigest hwrite =>
    obtain rfl := Option.some.inj (hp.symm.trans hpreview)
    obtain ⟨hget, howner, hdeleted⟩ := getRow_eq_ok.1 hrow
    simp only [publishRow, bind_eq_ok, pure_eq_ok] at hwrite
    obtain ⟨db₁, hwrite, rfl⟩ := hwrite
    obtain ⟨-, hsubs, -, -⟩ := writeRow_eq_ok hwrite
    have hget' : db₁.subscriptions.get? id = some { row with
        published := some row.draft
        publishedVersion := row.version + 1
        version := row.version + 1
        legacy := false
        updatedAt := now } := by
      rw [hsubs, Table.get?_set, if_pos rfl]
    rw [← howner] at hsnapshot
    refine ⟨row, current, hget, hsame, hdigest, row, snapshot, _, hget, hsnapshot, hcurrent, hget',
      rfl, fun henabled token htoken hhash => ?_⟩
    have hbelongs : Belongs (db₁.withPreviews (db₁.subscriptionPreviews.set previewId
        { p with published := true })) (tokenHash token) id _ := .stored hget' hhash.symm
    rw [hbelongs.answer_eq site snapshots,
      Face.answer_published site htoken (by simp [SubscriptionRow.face, hdeleted]) henabled rfl
        hsnapshot (active_of_renderSubscription hcurrent), hcurrent]
    rfl

/-- Republishing a preview writes nothing. -/
theorem publish_again {userId previewId : String} {expected : Int} {profile : ProfileDto}
    {p : SubscriptionPreviewRow} (hp : db.subscriptionPreviews.get? previewId = some p)
    (hpublished : p.published = true)
    (h : publish site snapshots userId id expected previewId now db = .ok (profile, db')) :
    db' = db := by
  have heffect := publish_effect h
  cases heffect with
  | publishedBefore => rfl
  | published _ _ hpreview _ hfresh =>
    obtain rfl := Option.some.inj (hp.symm.trans hpreview)
    rw [hpublished] at hfresh
    cases hfresh

/-- The first publication of a preview: since the preview was taken nothing was written to the
subscription, and its draft renders to the previewed digest, hence, as far as SHA-256 tells the two
texts apart, to the previewed bytes. -/
theorem publish_of_preview {db db₁ db₂ db₃ : SubscriptionTables} {userId userId' : String}
    {expected expected' now now' : Int} {snapshots snapshots' : Snapshots N} {previewId : NewId}
    {dto : PreviewDto} {profile : ProfileDto} {events : List (Event N)}
    (hpreview : preview site snapshots userId id expected previewId now db = .ok (dto, db₁))
    (hcommits : commits site db₁ events = .ok db₂)
    (hnot : ∀ event ∈ events, ¬ event.request.Previews previewId.1)
    (hpublish : publish site snapshots' userId' id expected' previewId.1 now' db₂ =
      .ok (profile, db₃)) :
    Quiet site id db₁ events ∧ ∃ current, PublishedAs site snapshots' db₂ db₃ id current ∧
      digestOf current = dto.digest ∧ dto.digest = digestOf dto.rendered ∧
      ((digestOf current = digestOf dto.rendered →
          bufferFrom current.configJson = bufferFrom dto.rendered.configJson) →
        bufferFrom current.configJson = bufferFrom dto.rendered.configJson) := by
  obtain ⟨row₀, hrow₀, hsubs, hp, hdigest⟩ := preview_eq_ok hpreview
  have hget₀ : db₁.subscriptions.get? id = some row₀ := hsubs ▸ (getRow_eq_ok.1 hrow₀).1
  obtain ⟨row₂, hget₂, -, -, hquiet⟩ := commits_version hget₀ hcommits
  have hpreviewed : ∃ p, db₂.subscriptionPreviews.get? previewId.1 = some p := by
    simp only [publish, bind_eq_ok, found_eq_ok] at hpublish
    obtain ⟨_, -, p, hfilter, -⟩ := hpublish
    exact ⟨p, (Option.filter_eq_some_iff.1 hfilter).1⟩
  obtain ⟨p, hp₂⟩ := hpreviewed
  have hsame := commits_preview hnot hcommits hp₂
  obtain rfl := Option.some.inj (hp.symm.trans hsame)
  obtain ⟨row, current, hget, hversion, hcurrent, hpublished⟩ := publish_first hp₂ rfl hpublish
  obtain rfl := Option.some.inj (hget₂.symm.trans hget)
  refine ⟨(hquiet hversion.symm).2, current, hpublished, hcurrent, hdigest, ?_⟩
  exact fun hfree => hfree (hcurrent.trans hdigest)

/-- Over any run of committed requests: the first publication of a preview follows the preview with
no write in between and publishes what was previewed; every write is made against the version there
is and leaves the next one, so versions grow; and publishing a published preview changes nothing. -/
theorem published_is_previewed (site : Site N) (id : String) :
    (∀ (db db₁ db₂ db₃ : SubscriptionTables) (userId userId' : String)
      (expected expected' now now' : Int) (snapshots snapshots' : Snapshots N) (previewId : NewId)
      (dto : PreviewDto) (profile : ProfileDto) (events : List (Event N)),
      preview site snapshots userId id expected previewId now db = .ok (dto, db₁) →
      commits site db₁ events = .ok db₂ →
      (∀ event ∈ events, ¬ event.request.Previews previewId.1) →
      publish site snapshots' userId' id expected' previewId.1 now' db₂ = .ok (profile, db₃) →
        Quiet site id db₁ events ∧ ∃ current, PublishedAs site snapshots' db₂ db₃ id current ∧
          digestOf current = dto.digest ∧ dto.digest = digestOf dto.rendered ∧
          ((digestOf current = digestOf dto.rendered →
              bufferFrom current.configJson = bufferFrom dto.rendered.configJson) →
            bufferFrom current.configJson = bufferFrom dto.rendered.configJson)) ∧
    (∀ (db db' : SubscriptionTables) (event : Event N) (row : SubscriptionRow),
      db.subscriptions.get? id = some row → event.request.Writes db id →
      commit site event.snapshots event.now db event.request = .ok db' →
        ∃ row', db'.subscriptions.get? id = some row' ∧
          event.request.expected = some row.version ∧ row'.version = row.version + 1) ∧
    (∀ (db db' : SubscriptionTables) (events : List (Event N)) (row : SubscriptionRow),
      db.subscriptions.get? id = some row → commits site db events = .ok db' →
        ∃ row', db'.subscriptions.get? id = some row' ∧ row.version ≤ row'.version ∧
          (¬ Quiet site id db events → row.version < row'.version)) ∧
    ∀ (db db' : SubscriptionTables) (userId previewId : String) (expected now : Int)
      (snapshots : Snapshots N) (profile : ProfileDto) (p : SubscriptionPreviewRow),
      db.subscriptionPreviews.get? previewId = some p → p.published = true →
      publish site snapshots userId id expected previewId now db = .ok (profile, db') →
        db' = db := by
  refine ⟨?_, ?_, ?_, ?_⟩
  · intro db db₁ db₂ db₃ u u' e e' now now' s s' p dto profile events hpreview hcommits hnot hpublish
    exact publish_of_preview hpreview hcommits hnot hpublish
  · intro db db' event row hrow hwrites hcommit
    obtain ⟨row', hrow', hmoved⟩ := commit_moved hrow hcommit
    cases hmoved with
    | written _ hexpected _ hversion => exact ⟨row', hrow', hexpected, hversion⟩
    | kept hnot => exact absurd hwrites hnot
  · intro db db' events row hrow hcommits
    obtain ⟨row', hrow', -, hle, hsame⟩ := commits_version hrow hcommits
    refine ⟨row', hrow', hle, fun hloud => ?_⟩
    by_contra hlt
    exact hloud (hsame (by omega)).2
  · intro db db' u p e now s profile preview hp hpublished hpublish
    exact publish_again hp hpublished hpublish

end Runs

/-! ## A publication in between -/

/-- The request is a `save`, a `publish` or an `update` of the subscription `id`. -/
def Request.Names (id : String) : Request → Prop
  | .save _ id' _ _ _ => id' = id
  | .update _ id' _ _ _ => id' = id
  | .publish _ id' _ _ => id' = id
  | _ => False

theorem ownId_isUuid : isUuid "00000000-0000-4000-8000-000000000001" = true := by decide +kernel

def ownId : NewId := ⟨"00000000-0000-4000-8000-000000000001", ownId_isUuid⟩
def firstPreview : NewId := ⟨"00000000-0000-4000-8000-000000000002", by decide +kernel⟩
def secondPreview : NewId := ⟨"00000000-0000-4000-8000-000000000003", by decide +kernel⟩

/-- A subscription whose draft is saved, previewed and published. -/
def publishedOnce : List (Event ℕ) :=
  [⟨fun _ => .ok oneNode, 0, .create "u"
      ⟨utf16 "phone", "mobile", "00000000-0000-4000-8000-000000000000", none⟩ ownId firstToken⟩,
    ⟨fun _ => .ok oneNode, 1, .save "u" ownId.1 1 (utf16 "phone") boundDraft⟩,
    ⟨fun _ => .ok oneNode, 2, .preview "u" ownId.1 2 firstPreview⟩,
    ⟨fun _ => .ok oneNode, 3, .publish "u" ownId.1 2 firstPreview.1⟩]

/-- A client that repeats its publication. -/
def repeated : List (Event ℕ) :=
  [⟨fun _ => .ok oneNode, 5, .publish "u" ownId.1 2 firstPreview.1⟩]

/-- The second preview of that subscription, the repeated publication, and the publication of the
second preview. -/
def publishedTwice : Except Thrown Unit := do
  let db ← commits plainSite .empty publishedOnce
  let (_, db₁) ← preview plainSite (fun _ => .ok oneNode) "u" ownId.1 3 secondPreview 4 db
  let db₂ ← commits plainSite db₁ repeated
  let _ ← publish plainSite (fun _ => .ok oneNode) "u" ownId.1 3 secondPreview.1 6 db₂
  return ()

theorem publishedTwice_runs : ∃ db db₁ db₂ db₃ dto profile,
    preview plainSite (fun _ => .ok oneNode) "u" ownId.1 3 secondPreview 4 db = .ok (dto, db₁) ∧
      commits plainSite db₁ repeated = .ok db₂ ∧
      publish plainSite (fun _ => .ok oneNode) "u" ownId.1 3 secondPreview.1 6 db₂ =
        .ok (profile, db₃) := by
  have hruns : (match publishedTwice with
      | .ok _ => true
      | .error _ => false) = true := by decide +kernel
  cases h : publishedTwice with
  | error e => simp [h] at hruns
  | ok =>
    simp only [publishedTwice, bind_eq_ok, Prod.exists] at h
    obtain ⟨db, -, dto, db₁, hpreview, db₂, hcommits, profile, db₃, hpublish, -⟩ := h
    exact ⟨db, db₁, db₂, db₃, dto, profile, hpreview, hcommits, hpublish⟩

/-- Nothing was written in between. -/
theorem publishedTwice_quiet : ∃ db₁ db₂, commits plainSite db₁ repeated = .ok db₂ ∧
    Quiet plainSite ownId.1 db₁ repeated := by
  obtain ⟨db, db₁, db₂, db₃, dto, profile, hpreview, hcommits, hpublish⟩ := publishedTwice_runs
  have hfirst := (published_is_previewed plainSite ownId.1).1 db db₁ db₂ db₃ "u" "u" 3 3 4 6 _ _
    secondPreview dto profile repeated hpreview hcommits (by simp [repeated, Request.Previews,
      firstPreview, secondPreview]) hpublish
  exact ⟨db₁, db₂, hcommits, hfirst.1⟩

/-- A publication may succeed between a preview and its own: that of a published preview. -/
theorem repeated_between : ¬ ∀ (site : Site ℕ) (id : String)
    (db db₁ db₂ db₃ : SubscriptionTables) (userId userId' : String)
    (expected expected' now now' : Int) (snapshots snapshots' : Snapshots ℕ) (previewId : NewId)
    (dto : PreviewDto) (profile : ProfileDto) (events : List (Event ℕ)),
    preview site snapshots userId id expected previewId now db = .ok (dto, db₁) →
    commits site db₁ events = .ok db₂ →
    (∀ event ∈ events, ¬ event.request.Previews previewId.1) →
    publish site snapshots' userId' id expected' previewId.1 now' db₂ = .ok (profile, db₃) →
      ∀ event ∈ events, ¬ event.request.Names id := by
  intro h
  obtain ⟨db, db₁, db₂, db₃, dto, profile, hpreview, hcommits, hpublish⟩ := publishedTwice_runs
  have hnone := h plainSite ownId.1 db db₁ db₂ db₃ "u" "u" 3 3 4 6 _ _ secondPreview dto profile
    repeated hpreview hcommits (by simp [repeated, Request.Previews, firstPreview, secondPreview])
    hpublish
  exact hnone _ List.mem_cons_self rfl

end Bifurcation.Panel.Profiles
