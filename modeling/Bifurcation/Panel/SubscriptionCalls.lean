import Bifurcation.Panel.Subscriptions

/-!
# Requests on subscriptions

What each committed transaction of the subscription stores does to the tables. A request either
throws and commits nothing, or commits one of the changes of `Effect`; listing and serving may
throw after the default subscription was committed, which is a change of its own.

`resetToken` commits three times: the default subscription, the token row, and the copy of the
token in the default subscription. Its last two commits are requests here.
-/

namespace Bifurcation.Panel

open Javascript

/-! ## Writes -/

namespace SubscriptionTables

variable {db db' : SubscriptionTables}

theorem writeRow_eq_ok {id : String} {row : SubscriptionRow} (h : db.writeRow id row = .ok db') :
    db.Admits id row ∧ db'.subscriptions = db.subscriptions.set id row ∧
      db'.subscriptionTokens = db.subscriptionTokens ∧
      db'.subscriptionPreviews = db.subscriptionPreviews := by
  unfold writeRow at h
  by_cases hadmits : db.Admits id row
  · rw [dif_pos hadmits] at h
    cases h
    exact ⟨hadmits, rfl, rfl, rfl⟩
  · rw [dif_neg hadmits] at h
    cases h

theorem writeToken_eq_ok {userId : String} {row : TokenRow}
    (h : db.writeToken userId row = .ok db') :
    (∀ x ∈ db.subscriptionTokens.rows, x.1 ≠ userId → x.2.tokenHash ≠ row.tokenHash) ∧
      db'.subscriptionTokens = db.subscriptionTokens.set userId row ∧
      db'.subscriptions = db.subscriptions ∧
      db'.subscriptionPreviews = db.subscriptionPreviews := by
  unfold writeToken at h
  by_cases hnew : ∀ x ∈ db.subscriptionTokens.rows, x.1 ≠ userId → x.2.tokenHash ≠ row.tokenHash
  · rw [dif_pos hnew] at h
    cases h
    exact ⟨hnew, rfl, rfl, rfl⟩
  · rw [dif_neg hnew] at h
    cases h

/-- A token hash belongs to one subscription. -/
theorem byHash_eq_some {hash id : String} {row : SubscriptionRow} :
    db.byHash hash = some (id, row) ↔
      db.subscriptions.get? id = some row ∧ row.tokenHash = hash := by
  constructor
  · intro h
    have hhash := List.find?_some h
    exact ⟨Table.mem_rows_iff.1 (List.mem_of_find?_eq_some h), by simpa using hhash⟩
  · intro h
    obtain ⟨hget, hhash⟩ := h
    have hmem : (id, row) ∈ db.subscriptions.rows := Table.mem_rows_iff.2 hget
    cases hfind : db.byHash hash with
    | none =>
      have hnone := List.find?_eq_none.1 hfind (id, row) hmem
      exact absurd hhash (by simpa using hnone)
    | some x =>
      have hx := List.mem_of_find?_eq_some hfind
      have hxhash : x.2.tokenHash = hash := by simpa using List.find?_some hfind
      by_cases hid : x.1 = id
      · have hxget := Table.mem_rows_iff.1 (show (x.1, x.2) ∈ _ from hx)
        rw [hid, hget] at hxget
        exact congrArg some (Prod.ext hid (Option.some.inj hxget).symm)
      · exact absurd (hxhash.trans hhash.symm) (db.apart x hx (id, row) hmem hid).1

/-- A token hash belongs to one user. -/
theorem ownerByHash_eq_some {hash userId : String} {row : TokenRow} :
    db.ownerByHash hash = some (userId, row) ↔
      db.subscriptionTokens.get? userId = some row ∧ row.tokenHash = hash := by
  constructor
  · intro h
    have hhash := List.find?_some h
    exact ⟨Table.mem_rows_iff.1 (List.mem_of_find?_eq_some h), by simpa using hhash⟩
  · intro h
    obtain ⟨hget, hhash⟩ := h
    have hmem : (userId, row) ∈ db.subscriptionTokens.rows := Table.mem_rows_iff.2 hget
    cases hfind : db.ownerByHash hash with
    | none =>
      have hnone := List.find?_eq_none.1 hfind (userId, row) hmem
      exact absurd hhash (by simpa using hnone)
    | some x =>
      have hx := List.mem_of_find?_eq_some hfind
      have hxhash : x.2.tokenHash = hash := by simpa using List.find?_some hfind
      by_cases hid : x.1 = userId
      · have hxget := Table.mem_rows_iff.1 (show (x.1, x.2) ∈ _ from hx)
        rw [hid, hget] at hxget
        exact congrArg some (Prod.ext hid (Option.some.inj hxget).symm)
      · exact absurd (hxhash.trans hhash.symm) (db.distinct x hx (userId, row) hmem hid)

theorem byHash_eq_none {hash : String} :
    db.byHash hash = none ↔
      ∀ id row, db.subscriptions.get? id = some row → row.tokenHash ≠ hash := by
  constructor
  · intro h id row hget hhash
    rw [byHash_eq_some.2 ⟨hget, hhash⟩] at h
    cases h
  · intro h
    cases hfind : db.byHash hash with
    | none => rfl
    | some x =>
      obtain ⟨hget, hhash⟩ := byHash_eq_some.1 (show db.byHash hash = some (x.1, x.2) from hfind)
      exact absurd hhash (h _ _ hget)

end SubscriptionTables

namespace Profiles

open SubscriptionTables

section Calls

variable {N : Type} (site : Site N) (snapshots : Snapshots N)

/-! ## Requests -/

inductive Request where
  | initializeUser (userId : String) (token : NewToken)
  | list (userId : String)
  | create (userId : String) (input : CreateInput) (id : NewId) (token : NewToken)
  | save (userId id : String) (expectedVersion : Int) (name : JsString)
      (input : SubscriptionDraft)
  | preview (userId id : String) (expectedVersion : Int) (previewId : NewId)
  | publish (userId id : String) (expectedVersion : Int) (previewId : String)
  | update (userId id : String) (expectedVersion : Int) (action : Action) (token : NewToken)
  | byToken (token : String)
  /-- The first transaction of `resetToken`. -/
  | replaceToken (userId : String) (token : NewToken)
  /-- The last statement of `resetToken`. -/
  | syncLegacyToken (userId : String)

/-- The tables a request commits. -/
def commit (now : Int) (db : SubscriptionTables) : Request → Except Thrown SubscriptionTables
  | .initializeUser userId token => initializeUserSecrets userId token now db
  | .list userId => ensureLegacy site snapshots userId db
  | .create userId input id token =>
    (create site snapshots userId input id token now db).map Prod.snd
  | .save userId id expectedVersion name input =>
    (save site snapshots userId id expectedVersion name input now db).map Prod.snd
  | .preview userId id expectedVersion previewId =>
    (preview site snapshots userId id expectedVersion previewId now db).map Prod.snd
  | .publish userId id expectedVersion previewId =>
    (publish site snapshots userId id expectedVersion previewId now db).map Prod.snd
  | .update userId id expectedVersion action token =>
    (update site snapshots userId id expectedVersion action token now db).map Prod.snd
  | .byToken token => .ok (afterAnswer site snapshots token now db)
  | .replaceToken userId token => replaceToken userId token now db
  | .syncLegacyToken userId => syncLegacyToken userId db

/-- `ensureLegacy` has run for a user. -/
inductive Ensured (userId : String) (db : SubscriptionTables) : SubscriptionTables → Prop
  | same : Ensured userId db db
  | added {token : TokenRow} {draft : SubscriptionDraft} {db' : SubscriptionTables}
      (htoken : db.subscriptionTokens.get? userId = some token)
      (hnone : db.subscriptions.get? (defaultId userId) = none)
      (hwrite : db.writeRow (defaultId userId) (legacyRow userId token draft) = .ok db') :
      Ensured userId db db'

/-- The hash of the token a request draws. -/
def Request.drawn : Request → Option String
  | .initializeUser _ token => some (tokenHash token.1)
  | .create _ _ _ token => some (tokenHash token.1)
  | .update _ _ _ .rotate token => some (tokenHash token.1)
  | .replaceToken _ token => some (tokenHash token.1)
  | _ => none

/-- A request, with the time and the snapshots it sees. -/
structure Event (N : Type) where
  snapshots : Snapshots N
  now : Int
  request : Request

/-- What a committed request does to the tables. -/
inductive Effect (now : Int) : Request → SubscriptionTables → SubscriptionTables → Prop
  | initialized {userId : String} {token : NewToken} {db db' : SubscriptionTables}
      (hnone : db.subscriptionTokens.get? userId = none)
      (hwrite : db.writeToken userId
        { tokenHash := tokenHash token.1, token := token.1, changedAt := now } = .ok db') :
      Effect now (.initializeUser userId token) db db'
  | alreadyInitialized {userId : String} {token : NewToken} {db : SubscriptionTables} :
      Effect now (.initializeUser userId token) db db
  | listed {userId : String} {db db' : SubscriptionTables} (h : Ensured userId db db') :
      Effect now (.list userId) db db'
  | createdBefore {userId : String} {input : CreateInput} {id : NewId} {token : NewToken}
      {db db' : SubscriptionTables} (h : Ensured userId db db') :
      Effect now (.create userId input id token) db db'
  | created {userId : String} {input : CreateInput} {id : NewId} {token : NewToken}
      {db db₁ db' : SubscriptionTables} {row : SubscriptionRow} (h : Ensured userId db db₁)
      (hnone : db₁.subscriptions.get? id.1 = none) (hhash : row.tokenHash = tokenHash token.1)
      (howner : row.userId = userId) (hkey : isUuid row.requestKey = true)
      (hwrite : db₁.writeRow id.1 row = .ok db') :
      Effect now (.create userId input id token) db db'
  | saved {userId id : String} {expected : Int} {name name' : JsString}
      {input : SubscriptionDraft} {db db' : SubscriptionTables} {row : SubscriptionRow}
      (hrow : getRow db userId id = .ok row) (hversion : row.version = expected)
      (hwrite : db.writeRow id { row with
        name := name', draft := input, version := row.version + 1, updatedAt := now } = .ok db') :
      Effect now (.save userId id expected name input) db db'
  | previewed {userId id : String} {expected : Int} {previewId : NewId}
      {db : SubscriptionTables} {row : SubscriptionRow} {snapshot : Snapshot N}
      {rendered : Rendered} {previews : Table String SubscriptionPreviewRow}
      (hrow : getRow db userId id = .ok row) (hversion : row.version = expected)
      (hsnapshot : snapshots userId = .ok snapshot)
      (hrendered : renderSubscription site.js row.draft snapshot = .ok rendered)
      (hprevious : ∀ p, p ≠ previewId.1 → ∀ r, previews.get? p = some r →
        db.subscriptionPreviews.get? p = some r)
      (hpreview : previews.get? previewId.1 = some
        { subscriptionId := id
          version := row.version
          digest := digestOf rendered
          expiresAt := now + 5 * 60000 }) :
      Effect now (.preview userId id expected previewId) db (db.withPreviews previews)
  | publishedBefore {userId id previewId : String} {expected : Int} {db : SubscriptionTables}
      {preview : SubscriptionPreviewRow}
      (hpreview : db.subscriptionPreviews.get? previewId = some preview)
      (hof : preview.subscriptionId = id) (hpublished : preview.published = true) :
      Effect now (.publish userId id expected previewId) db db
  | published {userId id previewId : String} {expected : Int} {db db' : SubscriptionTables}
      {row : SubscriptionRow} {preview : SubscriptionPreviewRow} {snapshot : Snapshot N}
      {current : Rendered} (hrow : getRow db userId id = .ok row)
      (hversion : row.version = expected)
      (hpreview : db.subscriptionPreviews.get? previewId = some preview)
      (hof : preview.subscriptionId = id) (hpublished : preview.published = false)
      (hsame : preview.version = row.version) (hsnapshot : snapshots userId = .ok snapshot)
      (hcurrent : renderSubscription site.js row.draft snapshot = .ok current)
      (hdigest : digestOf current = preview.digest)
      (hwrite : publishRow id previewId row preview now db = .ok db') :
      Effect now (.publish userId id expected previewId) db db'
  | updated {userId id : String} {expected : Int} {action : Action} {token : NewToken}
      {db db₁ db' : SubscriptionTables} {row : SubscriptionRow}
      (hrow : getRow db userId id = .ok row) (hversion : row.version = expected)
      (hwrite : db.writeRow id (updatedRow row action token now) = .ok db₁)
      (hsync : syncTokenRow userId id action (updatedRow row action token now) now db₁ = .ok db') :
      Effect now (.update userId id expected action token) db db'
  | notServed {token userId : String} {db db' : SubscriptionTables} (h : Ensured userId db db') :
      Effect now (.byToken token) db db'
  | served {token userId id : String} {db db₁ db' : SubscriptionTables} {row : SubscriptionRow}
      (h : Ensured userId db db₁) (hrow : db₁.subscriptions.get? id = some row)
      (hwrite : db₁.writeRow id { row with lastFetchedAt := some now } = .ok db') :
      Effect now (.byToken token) db db'
  | replaced {userId : String} {token : NewToken} {db db' : SubscriptionTables}
      {previous : TokenRow} (hprevious : db.subscriptionTokens.get? userId = some previous)
      (hwrite : db.writeToken userId
        { tokenHash := tokenHash token.1
          token := token.1
          generation := previous.generation + 1
          changedAt := now } = .ok db') :
      Effect now (.replaceToken userId token) db db'
  | synced {userId : String} {db db' : SubscriptionTables} {token : TokenRow}
      {row : SubscriptionRow} (htoken : db.subscriptionTokens.get? userId = some token)
      (hrow : db.subscriptions.get? (defaultId userId) = some row)
      (hwrite : db.writeRow (defaultId userId) { row with
        tokenHash := token.tokenHash
        token := token.token
        generation := token.generation } = .ok db') :
      Effect now (.syncLegacyToken userId) db db'
  | nothingToSync {userId : String} {db : SubscriptionTables}
      (hnone : db.subscriptionTokens.get? userId = none ∨
        db.subscriptions.get? (defaultId userId) = none) :
      Effect now (.syncLegacyToken userId) db db

variable {site snapshots} {db db' : SubscriptionTables} {now : Int}

/-! ## Identifiers -/

theorem defaultId_injective {u u' : String} (h : defaultId u = defaultId u') : u = u' := by
  simpa [defaultId, String.ext_iff] using h

/-- A drawn id is not the id of a default subscription: `u` and `l` are no hexadecimal digits. -/
theorem newId_ne_defaultId (id : NewId) (u : String) : id.1 ≠ defaultId u := by
  intro h
  have huuid := id.2
  rw [h] at huuid
  have hchars : (defaultId u).toList = "default:".toList ++ u.toList := by simp [defaultId]
  obtain ⟨g, gs, hgroups⟩ : ∃ g gs,
      (defaultId u).toList.splitOn '-' = ("default:".toList ++ g) :: gs := by
    cases hrest : List.splitOnP (· == '-') u.toList with
    | nil => exact absurd hrest (List.splitOnP_ne_nil _ _)
    | cons g gs =>
      refine ⟨g, gs, ?_⟩
      rw [hchars]
      simp [List.splitOn, List.splitOnP_cons_eq_if_modifyHead, hrest]
  have hne : ∀ s : String, s.toList.head? = some '0' ∨ s.toList.head? = some 'f' →
      defaultId u ≠ s := by
    intro s hs heq
    rw [← heq, hchars] at hs
    simp at hs
  have hzero := hne "00000000-0000-0000-0000-000000000000" (.inl (by decide))
  have hones := hne "ffffffff-ffff-ffff-ffff-ffffffffffff" (.inr (by decide))
  simp [isUuid, hgroups, hzero, hones, isHex] at huuid

/-! ## Inversion -/

theorem getRow_eq_ok {userId id : String} {row : SubscriptionRow} :
    getRow db userId id = .ok row ↔
      db.subscriptions.get? id = some row ∧ row.userId = userId ∧ row.deletedAt = none := by
  simp [getRow, Option.filter_eq_some_iff]

theorem checkVersion_eq_ok {row : SubscriptionRow} {expected : Int} {u : Unit} :
    checkVersion row expected = .ok u ↔ row.version = expected := by
  simp [checkVersion]

theorem ensured_of_ensureLegacy {userId : String}
    (h : ensureLegacy site snapshots userId db = .ok db') : Ensured userId db db' := by
  unfold ensureLegacy at h
  cases htoken : db.subscriptionTokens.get? userId with
  | none =>
    rw [htoken] at h
    cases h
    exact .same
  | some token =>
    cases hrow : db.subscriptions.get? (defaultId userId) with
    | some row =>
      rw [htoken, hrow] at h
      cases h
      exact .same
    | none =>
      rw [htoken, hrow] at h
      obtain ⟨snapshot, -, hwrite⟩ := bind_eq_ok.1 h
      simp only at hwrite
      split_ifs at hwrite with hadmits
      · exact .added htoken hrow hwrite
      · cases hwrite
        exact .same

/-- Making a default subscription keeps the rows there are. -/
theorem Ensured.kept {userId : String} (h : Ensured userId db db') {id : String}
    {row : SubscriptionRow} (hrow : db.subscriptions.get? id = some row) :
    db'.subscriptions.get? id = some row := by
  cases h with
  | same => exact hrow
  | added htoken hnone hwrite =>
    obtain ⟨-, hsubs, -, -⟩ := writeRow_eq_ok hwrite
    rw [hsubs, Table.get?_set_of_ne _ _ ?_, hrow]
    intro heq
    rw [heq, hnone] at hrow
    cases hrow

theorem map_eq_ok {α β : Type} {x : Except Thrown (α × β)} {b : β}
    (h : x.map Prod.snd = .ok b) : ∃ a, x = .ok (a, b) := by
  cases x with
  | error e => cases h
  | ok p =>
    cases h
    exact ⟨p.1, rfl⟩

theorem create_effect {userId : String} {input : CreateInput} {id : NewId} {token : NewToken}
    {profile : ProfileDto}
    (h : create site snapshots userId input id token now db = .ok (profile, db')) :
    Effect site snapshots now (.create userId input id token) db db' := by
  simp only [create, bind_eq_ok, failIf_eq_ok, exists_const] at h
  obtain ⟨name, -, huuid, -, db₁, hensure, hrest⟩ := h
  have hensured := ensured_of_ensureLegacy hensure
  cases hprevious : db₁.subscriptions.rows.find? fun x =>
      x.2.userId = userId ∧ x.2.requestKey = input.requestKey with
  | some previous =>
    rw [hprevious] at hrest
    simp only [bind_eq_ok, pure_eq_ok, Prod.mk.injEq] at hrest
    obtain ⟨_, -, -, rfl⟩ := hrest
    exact .createdBefore hensured
  | none =>
    rw [hprevious] at hrest
    simp only [insertNew, bind_eq_ok, failIf_eq_ok, pure_eq_ok, exists_const, Prod.mk.injEq]
      at hrest
    obtain ⟨-, source, -, hnone, db₂, hwrite, _, -, -, rfl⟩ := hrest
    refine .created hensured ?_ rfl rfl (by simpa [createdRow] using huuid) hwrite
    cases hget : db₁.subscriptions.get? id.1 with
    | none => rfl
    | some row => simp [hget] at hnone

theorem preview_effect {userId id : String} {expected : Int} {previewId : NewId} {p : PreviewDto}
    (h : preview site snapshots userId id expected previewId now db = .ok (p, db')) :
    Effect site snapshots now (.preview userId id expected previewId) db db' := by
  simp only [preview, bind_eq_ok, failIf_eq_ok, found_eq_ok, pure_eq_ok, exists_const,
    Prod.mk.injEq] at h
  obtain ⟨row, hrow, hu, hversion, -, snapshot, hsnapshot, rendered, hrendered, previews, hinsert,
    -, rfl⟩ := h
  obtain ⟨hnone, rfl⟩ := Table.insert?_eq_some.1 hinsert
  refine .previewed hrow (checkVersion_eq_ok.1 hversion) hsnapshot hrendered ?_ (by simp)
  intro p hp r hget
  rw [Table.get?_set_of_ne _ _ hp, Table.get?_deleteWhere] at hget
  exact (Option.filter_eq_some_iff.1 hget).1

theorem save_effect {userId id : String} {expected : Int} {name : JsString}
    {input : SubscriptionDraft} {profile : ProfileDto}
    (h : save site snapshots userId id expected name input now db = .ok (profile, db')) :
    Effect site snapshots now (.save userId id expected name input) db db' := by
  simp only [save, bind_eq_ok, failIf_eq_ok, pure_eq_ok, exists_const, Prod.mk.injEq] at h
  obtain ⟨-, row, hrow, _, hversion, name', -, db₁, hwrite, _, -, -, rfl⟩ := h
  exact .saved hrow (checkVersion_eq_ok.1 hversion) hwrite

theorem publish_effect {userId id previewId : String} {expected : Int} {profile : ProfileDto}
    (h : publish site snapshots userId id expected previewId now db = .ok (profile, db')) :
    Effect site snapshots now (.publish userId id expected previewId) db db' := by
  simp only [publish, bind_eq_ok, found_eq_ok] at h
  obtain ⟨row, hrow, preview, hfilter, hrest⟩ := h
  obtain ⟨hpreview, hof⟩ := Option.filter_eq_some_iff.1 hfilter
  have hof' : preview.subscriptionId = id := by simpa using hof
  by_cases hpublished : preview.published = true
  · rw [if_pos hpublished] at hrest
    simp only [bind_eq_ok, pure_eq_ok, Prod.mk.injEq] at hrest
    obtain ⟨_, -, -, rfl⟩ := hrest
    exact .publishedBefore hpreview hof' hpublished
  · rw [if_neg hpublished] at hrest
    simp only [bind_eq_ok, failIf_eq_ok, pure_eq_ok, exists_const, Prod.mk.injEq] at hrest
    obtain ⟨_, hversion, hfresh, snapshot, hsnapshot, current, hcurrent, hdigest, db₁, hwrite, _, -,
      -, rfl⟩ := hrest
    have hsame : preview.version = row.version := by
      by_contra hne
      exact hfresh (.inl hne)
    exact .published hrow (checkVersion_eq_ok.1 hversion) hpreview hof' (by simpa using hpublished)
      hsame hsnapshot hcurrent (not_not.1 hdigest) hwrite

theorem update_effect {userId id : String} {expected : Int} {action : Action} {token : NewToken}
    {profile : ProfileDto}
    (h : update site snapshots userId id expected action token now db = .ok (profile, db')) :
    Effect site snapshots now (.update userId id expected action token) db db' := by
  simp only [update, bind_eq_ok, pure_eq_ok, Prod.mk.injEq] at h
  obtain ⟨row, hrow, _, hversion, db₁, hwrite, db₂, hsync, _, -, -, rfl⟩ := h
  exact .updated hrow (checkVersion_eq_ok.1 hversion) hwrite hsync

theorem resolve_of_byHash {token : String} {x : String × SubscriptionRow}
    (h : db.byHash (tokenHash token) = some x) :
    resolve site snapshots token db = (.ok (some x), db) := by
  simp only [resolve, h]

theorem resolve_of_unknown {token : String} (h : db.byHash (tokenHash token) = none)
    (howner : db.ownerByHash (tokenHash token) = none) :
    resolve site snapshots token db = (.ok none, db) := by
  simp only [resolve, h, howner]

theorem resolve_of_owner {token : String} {owner : String × TokenRow}
    (h : db.byHash (tokenHash token) = none)
    (howner : db.ownerByHash (tokenHash token) = some owner) :
    resolve site snapshots token db =
      match ensureLegacy site snapshots owner.1 db with
      | .error e => (.error e, db)
      | .ok db => (.ok (db.byHash (tokenHash token)), db) := by
  cases hlegacy : ensureLegacy site snapshots owner.1 db with
  | error e => simp only [resolve, h, howner, hlegacy]
  | ok db' => simp only [resolve, h, howner, hlegacy]

/-- The token row of a user waits for its default subscription. -/
structure Pending (db : SubscriptionTables) (userId : String) (token : TokenRow) : Prop where
  held : db.subscriptionTokens.get? userId = some token
  missing : db.subscriptions.get? (defaultId userId) = none
  unused : ∀ id row, db.subscriptions.get? id = some row → row.tokenHash ≠ token.tokenHash
  free : ∀ id row, db.subscriptions.get? id = some row → row.userId = userId →
    row.requestKey ≠ "legacy"

/-- The indices allow the default subscription. -/
theorem Pending.admits {userId : String} {token : TokenRow} (h : Pending db userId token)
    (draft : SubscriptionDraft) : db.Admits (defaultId userId) (legacyRow userId token draft) := by
  intro x hx _
  have hget := Table.mem_rows_iff.1 (show (x.1, x.2) ∈ db.subscriptions.rows from hx)
  refine ⟨h.unused x.1 x.2 hget, fun hkey => ?_⟩
  obtain ⟨howner, hlegacy⟩ := Prod.mk.inj hkey
  exact h.free x.1 x.2 hget howner hlegacy

/-- A waiting token is served from the default subscription made for it. -/
theorem Pending.resolve_eq {userId token : String} {row : TokenRow} {snapshot : Snapshot N}
    (h : Pending db userId row) (hhash : row.tokenHash = tokenHash token)
    (hsnapshot : snapshots userId = .ok snapshot) :
    (resolve site snapshots token db).1 = .ok (some (defaultId userId,
      legacyRow userId row (legacyDraft site snapshot.secrets))) := by
  have hunknown : db.byHash (tokenHash token) = none :=
    byHash_eq_none.2 fun id r hget => hhash ▸ h.unused id r hget
  have hadmits := h.admits (legacyDraft site snapshot.secrets)
  obtain ⟨db', hwrite⟩ : ∃ db', db.writeRow (defaultId userId)
      (legacyRow userId row (legacyDraft site snapshot.secrets)) = .ok db' := ⟨_, dif_pos hadmits⟩
  obtain ⟨-, hsubs, -, -⟩ := writeRow_eq_ok hwrite
  have hensure : ensureLegacy site snapshots userId db = .ok db' := by
    simp only [ensureLegacy, h.held, h.missing, hsnapshot]
    exact (if_pos hadmits).trans hwrite
  have hget : db'.subscriptions.get? (defaultId userId) =
      some (legacyRow userId row (legacyDraft site snapshot.secrets)) := by
    rw [hsubs, Table.get?_set, if_pos rfl]
  rw [resolve_of_owner hunknown (ownerByHash_eq_some.2 ⟨h.held, hhash⟩), hensure]
  exact congrArg Except.ok (byHash_eq_some.2 ⟨hget, hhash⟩)

variable (site snapshots) in
/-- The tables `resolve` commits, and the row it finds in them. -/
theorem resolve_spec (token : String) (db : SubscriptionTables) :
    ∃ userId, Ensured userId db (resolve site snapshots token db).2 ∧
      ∀ id row, (resolve site snapshots token db).1 = .ok (some (id, row)) →
        (resolve site snapshots token db).2.subscriptions.get? id = some row := by
  cases hhash : db.byHash (tokenHash token) with
  | some x =>
    rw [resolve_of_byHash hhash]
    refine ⟨"", .same, fun id row h => ?_⟩
    obtain rfl := Option.some.inj (Except.ok.inj h)
    exact (byHash_eq_some.1 hhash).1
  | none =>
    cases howner : db.ownerByHash (tokenHash token) with
    | none =>
      rw [resolve_of_unknown hhash howner]
      exact ⟨"", .same, fun id row h => by cases h⟩
    | some owner =>
      rw [resolve_of_owner hhash howner]
      cases hensure : ensureLegacy site snapshots owner.1 db with
      | error e => exact ⟨"", .same, fun id row h => by cases h⟩
      | ok db₁ =>
        refine ⟨owner.1, ensured_of_ensureLegacy hensure, fun id row h => ?_⟩
        exact (byHash_eq_some.1 (Except.ok.inj h)).1

theorem byToken_effect (token : String) :
    Effect site snapshots now (.byToken token) db (afterAnswer site snapshots token now db) := by
  unfold afterAnswer
  by_cases htoken : isSubscriptionToken token = false
  · rw [if_pos htoken]
    have hsame : Ensured "" db db := .same
    exact .notServed hsame
  · rw [if_neg htoken]
    obtain ⟨userId, hensured, hrow⟩ := resolve_spec site snapshots token db
    dsimp only
    split
    · rename_i id row _ hfound hanswer
      split
      · rename_i db₁ hwrite
        exact .served hensured (hrow id row hfound) hwrite
      · exact .notServed hensured
    · exact .notServed hensured

/-- Every committed request is one of the changes of `Effect`. -/
theorem commit_effect {request : Request} (h : commit site snapshots now db request = .ok db') :
    Effect site snapshots now request db db' := by
  cases request with
  | initializeUser userId token =>
    simp only [commit, initializeUserSecrets] at h
    cases htoken : db.subscriptionTokens.get? userId with
    | none =>
      rw [htoken] at h
      exact .initialized htoken h
    | some row =>
      rw [htoken] at h
      cases h
      exact .alreadyInitialized
  | list userId => exact .listed (ensured_of_ensureLegacy h)
  | create userId input id token =>
    obtain ⟨profile, hcreate⟩ := map_eq_ok h
    exact create_effect hcreate
  | save userId id expected name input =>
    obtain ⟨profile, hsave⟩ := map_eq_ok h
    exact save_effect hsave
  | preview userId id expected previewId =>
    obtain ⟨p, hpreview⟩ := map_eq_ok h
    exact preview_effect hpreview
  | publish userId id expected previewId =>
    obtain ⟨profile, hpublish⟩ := map_eq_ok h
    exact publish_effect hpublish
  | update userId id expected action token =>
    obtain ⟨profile, hupdate⟩ := map_eq_ok h
    exact update_effect hupdate
  | byToken token =>
    obtain rfl := Except.ok.inj h
    exact byToken_effect token
  | replaceToken userId token =>
    simp only [commit, replaceToken, bind_eq_ok, found_eq_ok] at h
    obtain ⟨previous, hprevious, hwrite⟩ := h
    exact .replaced hprevious hwrite
  | syncLegacyToken userId =>
    simp only [commit, syncLegacyToken] at h
    cases htoken : db.subscriptionTokens.get? userId with
    | none =>
      rw [htoken] at h
      cases h
      exact .nothingToSync (.inl htoken)
    | some token =>
      cases hrow : db.subscriptions.get? (defaultId userId) with
      | none =>
        rw [htoken, hrow] at h
        cases h
        exact .nothingToSync (.inr hrow)
      | some row =>
        rw [htoken, hrow] at h
        exact .synced htoken hrow h

/-- No request removes a subscription. -/
theorem commit_kept {request : Request} (h : commit site snapshots now db request = .ok db')
    {id : String} (hsome : (db.subscriptions.get? id).isSome) :
    (db'.subscriptions.get? id).isSome := by
  have hensured : ∀ {u : String} {db db' : SubscriptionTables}, Ensured u db db' →
      (db.subscriptions.get? id).isSome → (db'.subscriptions.get? id).isSome := by
    intro u db db' hensured hsome
    obtain ⟨row, hrow⟩ := Option.isSome_iff_exists.1 hsome
    rw [hensured.kept hrow]
    rfl
  have hwrite : ∀ {i : String} {row : SubscriptionRow} {db db' : SubscriptionTables},
      db.writeRow i row = .ok db' → (db.subscriptions.get? id).isSome →
        (db'.subscriptions.get? id).isSome := by
    intro i row db db' hwrite hsome
    obtain ⟨-, hsubs, -, -⟩ := writeRow_eq_ok hwrite
    rw [hsubs, Table.get?_set]
    split_ifs
    · rfl
    · exact hsome
  have htoken : ∀ {u : String} {token : TokenRow} {db db' : SubscriptionTables},
      db.writeToken u token = .ok db' → (db.subscriptions.get? id).isSome →
        (db'.subscriptions.get? id).isSome := by
    intro u token db db' htoken hsome
    obtain ⟨-, -, hsubs, -⟩ := writeToken_eq_ok htoken
    exact hsubs.symm ▸ hsome
  cases commit_effect h with
  | initialized _ h => exact htoken h hsome
  | alreadyInitialized => exact hsome
  | listed h => exact hensured h hsome
  | createdBefore h => exact hensured h hsome
  | created h _ _ _ _ hrow => exact hwrite hrow (hensured h hsome)
  | saved _ _ h => exact hwrite h hsome
  | previewed => exact hsome
  | publishedBefore => exact hsome
  | published _ _ _ _ _ _ _ _ _ hrow =>
    simp only [publishRow, bind_eq_ok, pure_eq_ok] at hrow
    obtain ⟨db₁, hrow, rfl⟩ := hrow
    have hset := hwrite hrow hsome
    exact hset
  | updated _ _ h hsync =>
    unfold syncTokenRow at hsync
    split_ifs at hsync
    · exact htoken hsync (hwrite h hsome)
    · exact Except.ok.inj hsync ▸ hwrite h hsome
  | notServed h => exact hensured h hsome
  | served h _ hrow => exact hwrite hrow (hensured h hsome)
  | replaced _ h => exact htoken h hsome
  | synced _ _ h => exact hwrite h hsome
  | nothingToSync => exact hsome

end Calls

end Profiles

end Bifurcation.Panel
