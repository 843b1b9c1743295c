import Bifurcation.Panel.TokenRotation

/-!
# Subscription isolation

What a client gets for a token. The token belongs to one subscription, stored or still waiting to
be made from the token row of its owner, and the answer reads only the `Face` of it: the published
draft, the legacy flag, whether it is enabled and deleted, and the owner's snapshot.

No request on other subscriptions changes the face of this one, nor does a `save` or a `preview` of
this one. So the answer stays what it was.
-/

namespace Bifurcation.Panel.Profiles

open SubscriptionTables Javascript

/-! ## What a client sees of a subscription -/

/-- What a subscription is rendered from. -/
inductive Content where
  | published (draft : SubscriptionDraft)
  /-- The configuration of the links from before there were drafts. -/
  | legacy
  | unpublished

structure Face where
  userId : String
  content : Content
  enabled : Bool
  deleted : Bool

def SubscriptionRow.content (row : SubscriptionRow) : Content :=
  match row.published with
  | some draft => .published draft
  | none => if row.legacy then .legacy else .unpublished

def SubscriptionRow.face (row : SubscriptionRow) : Face :=
  ⟨row.userId, SubscriptionRow.content row, row.enabled, row.deletedAt.isSome⟩

/-- A default subscription that is not stored yet. -/
def legacyFace (userId : String) : Face := ⟨userId, .legacy, true, false⟩

/-- A token hash belongs to the subscription `id`, which has this face. -/
inductive Belongs (db : SubscriptionTables) (hash : String) : String → Face → Prop
  | stored {id : String} {row : SubscriptionRow} (hrow : db.subscriptions.get? id = some row)
      (hhash : row.tokenHash = hash) : Belongs db hash id (SubscriptionRow.face row)
  | waiting {userId : String} {token : TokenRow} (h : Pending db userId token)
      (hhash : token.tokenHash = hash) : Belongs db hash (defaultId userId) (legacyFace userId)

section Isolation

variable {N : Type}

/-- The answer to a client from what it sees of a subscription. -/
def Face.answer (site : Site N) (snapshots : Snapshots N) (token : String) (face : Face) :
    Except Thrown JsString := do
  failIf (isSubscriptionToken token = false)
    (.app "SUBSCRIPTION_NOT_FOUND" (utf16 "订阅不存在") 404)
  failIf (face.deleted = true) (.app "SUBSCRIPTION_NOT_FOUND" (utf16 "订阅不存在") 404)
  failIf (face.enabled = false) (.app "SUBSCRIPTION_PAUSED" (utf16 "订阅已暂停") 403)
  let snapshot ← snapshots face.userId
  failIf (snapshot.active = false) (.app "SUBSCRIPTION_DISABLED" (utf16 "账号已禁用") 403)
  match face.content with
  | .published draft => (renderSubscription site.js draft snapshot).map Rendered.configJson
  | .legacy =>
    let nodes := snapshot.nodes.filter fun node => node.available
    return jsonText site.js (renderClient site.js nodes snapshot.secrets snapshot.blocked)
  | .unpublished =>
    .error (.app "SUBSCRIPTION_UNPUBLISHED" (utf16 "请先预览并发布订阅配置") 422)

/-- An enabled subscription of an active account answers with its published draft. -/
theorem Face.answer_published (site : Site N) {snapshots : Snapshots N} {token : String}
    {face : Face} {draft : SubscriptionDraft} {snapshot : Snapshot N}
    (htoken : isSubscriptionToken token = true) (hdeleted : face.deleted = false)
    (henabled : face.enabled = true) (hcontent : face.content = .published draft)
    (hsnapshot : snapshots face.userId = .ok snapshot) (hactive : snapshot.active = true) :
    face.answer site snapshots token =
      (renderSubscription site.js draft snapshot).map Rendered.configJson := by
  have hopen : failIf (snapshot.active = false)
      (Thrown.app "SUBSCRIPTION_DISABLED" (utf16 "账号已禁用") 403) = .ok () :=
    failIf_of_not (by simp [hactive])
  simp only [Face.answer, hcontent, hsnapshot, htoken, hdeleted, henabled, ok_bind, hopen]
  rfl

/-- What `serve` reads of a row is its face. -/
theorem serve_eq_answer (site : Site N) (snapshots : Snapshots N) (row : SubscriptionRow)
    {token : String} (htoken : isSubscriptionToken token = true) :
    (serve site snapshots row).map Rendered.configJson =
      (SubscriptionRow.face row).answer site snapshots token := by
  have hdeleted : ∀ e : Thrown, failIf (row.deletedAt ≠ none) e =
      failIf (row.deletedAt.isSome = true) e := by
    intro e
    cases row.deletedAt <;> rfl
  simp only [serve, render, Face.answer, SubscriptionRow.face, map_bind]
  rw [failIf_of_not (c := isSubscriptionToken token = false) (by simp [htoken]), ok_bind, hdeleted]
  refine bind_congr fun _ => bind_congr fun _ => bind_congr fun snapshot =>
    bind_congr fun _ => ?_
  simp only [SubscriptionRow.content]
  cases row.published with
  | some draft => rfl
  | none => cases row.legacy <;> rfl

theorem answer_eq (site : Site N) (snapshots : Snapshots N) {token : String}
    (htoken : isSubscriptionToken token = true) (db : SubscriptionTables) :
    answer site snapshots token db = (resolve site snapshots token db).1 >>= fun x =>
      found (.app "SUBSCRIPTION_NOT_FOUND" (utf16 "订阅不存在") 404) x >>= fun x =>
        (serve site snapshots x.2).map Rendered.configJson := by
  simp only [answer]
  rw [failIf_of_not (c := isSubscriptionToken token = false) (by simp [htoken]), ok_bind]
  refine bind_congr fun _ => bind_congr fun x => ?_
  cases serve site snapshots x.2 with
  | ok rendered => rfl
  | error e => rfl

/-- The answer to a client is that of the face its token belongs to. -/
theorem Belongs.answer_eq {db : SubscriptionTables} {token id : String} {face : Face}
    (h : Belongs db (tokenHash token) id face) (site : Site N) (snapshots : Snapshots N) :
    answer site snapshots token db = face.answer site snapshots token := by
  by_cases htoken : isSubscriptionToken token = true
  · rw [Profiles.answer_eq site snapshots htoken]
    cases h with
    | stored hrow hhash =>
      rw [resolve_of_byHash (byHash_eq_some.2 ⟨hrow, hhash⟩)]
      exact serve_eq_answer site snapshots _ htoken
    | @waiting userId row hwaiting hhash =>
      cases hsnapshot : snapshots userId with
      | ok snapshot =>
        rw [hwaiting.resolve_eq hhash hsnapshot]
        exact serve_eq_answer site snapshots _ htoken
      | error e =>
        have hensure : ensureLegacy site snapshots userId db = .error e := by
          simp only [ensureLegacy, hwaiting.held, hwaiting.missing, hsnapshot]
          rfl
        have hunknown := byHash_eq_none.2 fun id r hget => hhash ▸ hwaiting.unused id r hget
        rw [resolve_of_owner hunknown (ownerByHash_eq_some.2 ⟨hwaiting.held, hhash⟩), hensure]
        simp only [Face.answer, legacyFace, hsnapshot]
        rw [failIf_of_not (c := isSubscriptionToken token = false) (by simp [htoken])]
        rfl
  · have hfalse : isSubscriptionToken token = false := by simpa using htoken
    simp only [answer, Face.answer]
    rw [failIf_of hfalse]
    rfl

/-- A face is seen through the snapshot of its owner only. -/
theorem Face.answer_congr (site : Site N) {snapshots snapshots' : Snapshots N} (token : String)
    {face : Face} (h : snapshots face.userId = snapshots' face.userId) :
    face.answer site snapshots token = face.answer site snapshots' token := by
  simp only [Face.answer, h]

end Isolation

/-! ## What keeps a face -/

section Steps

variable {db db' : SubscriptionTables} {hash id : String} {face : Face}

/-- A stored row is rewritten: another one, or this one with the same face and hash. -/
theorem Belongs.write (h : Belongs db hash id face) {id' : String} {row row' : SubscriptionRow}
    (hrow : db.subscriptions.get? id' = some row) (hwrite : db.writeRow id' row' = .ok db')
    (hsame : id' = id → SubscriptionRow.face row' = SubscriptionRow.face row ∧
      row'.tokenHash = row.tokenHash)
    (howner : row'.userId = row.userId) (hkey : row'.requestKey = row.requestKey)
    (hnew : db.byHash hash = none → row'.tokenHash ≠ hash) : Belongs db' hash id face := by
  obtain ⟨-, hsubs, htokens, -⟩ := writeRow_eq_ok hwrite
  cases h with
  | @stored _ r hr hhash =>
    by_cases hid : id' = id
    · obtain ⟨hface, hrowHash⟩ := hsame hid
      rw [hid, hr] at hrow
      obtain rfl := Option.some.inj hrow
      rw [← hface]
      exact .stored (by rw [hsubs, hid, Table.get?_set, if_pos rfl]) (hrowHash.trans hhash)
    · exact .stored (by rw [hsubs, Table.get?_set_of_ne _ _ (Ne.symm hid), hr]) hhash
  | @waiting userId token hwaiting hhash =>
    have hid : id' ≠ defaultId userId := by
      intro heq
      rw [heq, hwaiting.missing] at hrow
      cases hrow
    have hunknown := byHash_eq_none.2 fun i r hget => hhash ▸ hwaiting.unused i r hget
    refine .waiting ⟨htokens.symm ▸ hwaiting.held, ?_, ?_, ?_⟩ hhash
    · rw [hsubs, Table.get?_set_of_ne _ _ hid.symm, hwaiting.missing]
    · intro i r hget
      rw [hsubs, Table.get?_set] at hget
      by_cases hi : i = id'
      · rw [if_pos hi] at hget
        obtain rfl := Option.some.inj hget
        exact hhash.symm ▸ hnew hunknown
      · rw [if_neg hi] at hget
        exact hwaiting.unused i r hget
    · intro i r hget hr
      rw [hsubs, Table.get?_set] at hget
      by_cases hi : i = id'
      · rw [if_pos hi] at hget
        obtain rfl := Option.some.inj hget
        rw [hkey]
        exact hwaiting.free id' row hrow (howner ▸ hr)
      · rw [if_neg hi] at hget
        exact hwaiting.free i r hget hr

/-- A row is rewritten without a new hash. -/
theorem Belongs.rewrite (h : Belongs db hash id face) {id' : String} {row row' : SubscriptionRow}
    (hrow : db.subscriptions.get? id' = some row) (hwrite : db.writeRow id' row' = .ok db')
    (hface : id' = id → SubscriptionRow.face row' = SubscriptionRow.face row)
    (hhash : row'.tokenHash = row.tokenHash) (howner : row'.userId = row.userId)
    (hkey : row'.requestKey = row.requestKey) : Belongs db' hash id face := by
  refine h.write hrow hwrite (fun hid => ⟨hface hid, hhash⟩) howner hkey ?_
  intro hunknown
  rw [hhash]
  exact byHash_eq_none.1 hunknown id' row hrow

/-- A row that no default subscription has is added. -/
theorem Belongs.insert (h : Belongs db hash id face) {id' : String} {row : SubscriptionRow}
    (hnone : db.subscriptions.get? id' = none) (hwrite : db.writeRow id' row = .ok db')
    (hid : ∀ u, id' ≠ defaultId u) (hkey : row.requestKey ≠ "legacy")
    (hnew : db.byHash hash = none → row.tokenHash ≠ hash) : Belongs db' hash id face := by
  obtain ⟨-, hsubs, htokens, -⟩ := writeRow_eq_ok hwrite
  cases h with
  | @stored _ r hr hhash =>
    have hne : id ≠ id' := by
      intro heq
      rw [← heq, hr] at hnone
      cases hnone
    exact .stored (by rw [hsubs, Table.get?_set_of_ne _ _ hne, hr]) hhash
  | @waiting userId token hwaiting hhash =>
    have hunknown := byHash_eq_none.2 fun i r hget => hhash ▸ hwaiting.unused i r hget
    have hcases : ∀ i r, db'.subscriptions.get? i = some r →
        r = row ∨ db.subscriptions.get? i = some r := by
      intro i r hget
      rw [hsubs, Table.get?_set] at hget
      by_cases hi : i = id'
      · rw [if_pos hi] at hget
        exact .inl (Option.some.inj hget).symm
      · rw [if_neg hi] at hget
        exact .inr hget
    refine .waiting ⟨htokens.symm ▸ hwaiting.held, ?_, ?_, ?_⟩ hhash
    · rw [hsubs, Table.get?_set_of_ne _ _ (hid userId).symm, hwaiting.missing]
    · intro i r hget
      rcases hcases i r hget with rfl | hget
      · exact hhash.symm ▸ hnew hunknown
      · exact hwaiting.unused i r hget
    · intro i r hget hr
      rcases hcases i r hget with rfl | hget
      · exact hkey
      · exact hwaiting.free i r hget hr

/-- A default subscription is made, this one or another. -/
theorem Belongs.ensured (h : Belongs db hash id face) {userId : String}
    (hensured : Ensured userId db db') : Belongs db' hash id face := by
  cases hensured with
  | same => exact h
  | @added token draft _ htoken hnone hwrite =>
    obtain ⟨-, hsubs, htokens, -⟩ := writeRow_eq_ok hwrite
    cases h with
    | @stored _ r hr hhash =>
      have hne : id ≠ defaultId userId := by
        intro heq
        rw [← heq, hr] at hnone
        cases hnone
      exact .stored (by rw [hsubs, Table.get?_set_of_ne _ _ hne, hr]) hhash
    | @waiting u token' hwaiting hhash =>
      by_cases hu : u = userId
      · subst hu
        obtain rfl := Option.some.inj (htoken.symm.trans hwaiting.held)
        have hget : db'.subscriptions.get? (defaultId u) = some (legacyRow u token draft) := by
          rw [hsubs, Table.get?_set, if_pos rfl]
        exact .stored hget hhash
      · have hid : defaultId u ≠ defaultId userId := fun heq => hu (defaultId_injective heq)
        have hcases : ∀ i r, db'.subscriptions.get? i = some r →
            r = legacyRow userId token draft ∨ db.subscriptions.get? i = some r := by
          intro i r hget
          rw [hsubs, Table.get?_set] at hget
          by_cases hi : i = defaultId userId
          · rw [if_pos hi] at hget
            exact .inl (Option.some.inj hget).symm
          · rw [if_neg hi] at hget
            exact .inr hget
        refine .waiting ⟨htokens.symm ▸ hwaiting.held, ?_, ?_, ?_⟩ hhash
        · rw [hsubs, Table.get?_set_of_ne _ _ hid, hwaiting.missing]
        · intro i r hget hsame
          rcases hcases i r hget with rfl | hget
          · have h₁ := ownerByHash_eq_some.2 ⟨htoken, hsame⟩
            have h₂ := ownerByHash_eq_some.2 ⟨hwaiting.held, rfl⟩
            exact hu (congrArg Prod.fst (Option.some.inj (h₂.symm.trans h₁)))
          · exact hwaiting.unused i r hget hsame
        · intro i r hget hr
          rcases hcases i r hget with rfl | hget
          · exact absurd hr.symm hu
          · exact hwaiting.free i r hget hr

/-- A token row is written that no subscription is waiting for. -/
theorem Belongs.token (h : Belongs db hash id face) {userId : String} {token : TokenRow}
    (hwrite : db.writeToken userId token = .ok db')
    (hother : db.byHash hash = none → id ≠ defaultId userId) : Belongs db' hash id face := by
  obtain ⟨-, htokens, hsubs, -⟩ := writeToken_eq_ok hwrite
  cases h with
  | stored hr hhash => exact .stored (hsubs.symm ▸ hr) hhash
  | @waiting u token' hwaiting hhash =>
    have hunknown := byHash_eq_none.2 fun i r hget => hhash ▸ hwaiting.unused i r hget
    have hu : u ≠ userId := fun heq => hother hunknown (heq ▸ rfl)
    refine .waiting ⟨?_, hsubs.symm ▸ hwaiting.missing, ?_, ?_⟩ hhash
    · rw [htokens, Table.get?_set_of_ne _ _ hu, hwaiting.held]
    · rw [hsubs]
      exact hwaiting.unused
    · rw [hsubs]
      exact hwaiting.free

theorem Belongs.preview (h : Belongs db hash id face)
    (previews : Table String SubscriptionPreviewRow) :
    Belongs (db.withPreviews previews) hash id face := by
  cases h with
  | stored hr hhash => exact .stored hr hhash
  | waiting hwaiting hhash =>
    exact .waiting ⟨hwaiting.held, hwaiting.missing, hwaiting.unused, hwaiting.free⟩ hhash

theorem Belongs.waiting_of_unknown (h : Belongs db hash id face) (hunknown : db.byHash hash = none) :
    ∃ u token, id = defaultId u ∧ token.tokenHash = hash ∧ Pending db u token := by
  cases h with
  | stored hrow hhash => exact absurd hhash (byHash_eq_none.1 hunknown _ _ hrow)
  | waiting hwaiting hhash => exact ⟨_, _, rfl, hhash, hwaiting⟩

end Steps

/-! ## Requests around a subscription -/

/-- A request on other subscriptions, or one that writes no more than the draft of this one. -/
def Request.Around (id : String) : Request → Prop
  | .publish _ id' _ _ => id' ≠ id
  | .update _ id' _ _ _ => id' ≠ id
  | .replaceToken userId _ => defaultId userId ≠ id
  | .syncLegacyToken userId => defaultId userId ≠ id
  | _ => True

section Runs

variable {N : Type} {site : Site N} {snapshots : Snapshots N} {now : Int}
  {db db' : SubscriptionTables} {hash id : String} {face : Face}

/-- A committed request around a subscription keeps its face. -/
theorem Belongs.commit (h : Belongs db hash id face) {request : Request}
    (haround : request.Around id) (hdrawn : db.byHash hash = none → request.drawn ≠ some hash)
    (hcommit : commit site snapshots now db request = .ok db') : Belongs db' hash id face := by
  cases commit_effect hcommit with
  | initialized hnone hwrite =>
    apply h.token hwrite
    intro hunknown heq
    obtain ⟨u, token, hid, -, hwaiting⟩ := h.waiting_of_unknown hunknown
    obtain rfl := defaultId_injective (heq.symm.trans hid)
    rw [hwaiting.held] at hnone
    cases hnone
  | alreadyInitialized => exact h
  | listed hensured => exact h.ensured hensured
  | createdBefore hensured => exact h.ensured hensured
  | @created _ _ newId token _ db₁ _ row hensured hnone hhash howner hkey hwrite =>
    apply (h.ensured hensured).insert hnone hwrite (newId_ne_defaultId newId)
    · intro hlegacy
      rw [hlegacy] at hkey
      exact absurd hkey (by decide)
    · intro hunknown hsame
      have hbefore : db.byHash hash = none := by
        rw [byHash_eq_none] at hunknown ⊢
        exact fun i r hget => hunknown i r (hensured.kept hget)
      exact hdrawn hbefore (congrArg some (hhash.symm.trans hsame))
  | saved hrow hversion hwrite =>
    exact h.rewrite (getRow_eq_ok.1 hrow).1 hwrite (fun _ => rfl) rfl rfl rfl
  | previewed => exact h.preview _
  | publishedBefore => exact h
  | published hrow hversion hpreview hof hpublished hsame hsnapshot hcurrent hdigest hwrite =>
    simp only [publishRow, bind_eq_ok, pure_eq_ok] at hwrite
    obtain ⟨db₁, hwrite, rfl⟩ := hwrite
    exact (h.rewrite (getRow_eq_ok.1 hrow).1 hwrite (fun hid => absurd hid haround) rfl rfl
      rfl).preview _
  | @updated userId id' expected action token _ db₁ _ row hrow hversion hwrite hsync =>
    have hget := (getRow_eq_ok.1 hrow).1
    have hne : id' ≠ id := haround
    have hwritten : Belongs db₁ hash id face := by
      cases action with
      | rotate =>
        apply h.write hget hwrite (fun hid => absurd hid hne) rfl rfl
        intro hunknown hsame
        exact hdrawn hunknown (congrArg some hsame)
      | pause => exact h.rewrite hget hwrite (fun hid => absurd hid hne) rfl rfl rfl
      | resume => exact h.rewrite hget hwrite (fun hid => absurd hid hne) rfl rfl rfl
      | delete => exact h.rewrite hget hwrite (fun hid => absurd hid hne) rfl rfl rfl
    by_cases hsynced : action = .rotate ∧ id' = defaultId userId ∧
        (db₁.subscriptionTokens.get? userId).isSome
    · rw [syncTokenRow, if_pos hsynced] at hsync
      exact hwritten.token hsync fun _ heq => hne (hsynced.2.1.trans heq.symm)
    · rw [syncTokenRow, if_neg hsynced] at hsync
      exact Except.ok.inj hsync ▸ hwritten
  | notServed hensured => exact h.ensured hensured
  | served hensured hrow hwrite =>
    exact (h.ensured hensured).rewrite hrow hwrite (fun _ => rfl) rfl rfl rfl
  | replaced hprevious hwrite => exact h.token hwrite fun _ heq => haround heq.symm
  | @synced userId _ _ token row htoken hrow hwrite =>
    apply h.write hrow hwrite (fun hid => absurd hid haround) rfl rfl
    intro hunknown hsame
    obtain ⟨u, token', hid, hhash, hwaiting⟩ := h.waiting_of_unknown hunknown
    have h₁ := ownerByHash_eq_some.2 ⟨htoken, hsame⟩
    have h₂ := ownerByHash_eq_some.2 ⟨hwaiting.held, hhash⟩
    obtain rfl : u = userId := congrArg Prod.fst (Option.some.inj (h₂.symm.trans h₁))
    exact haround hid.symm
  | nothingToSync => exact h

/-- The tables after a request: a call that throws leaves them. -/
def after (site : Site N) (db : SubscriptionTables) (event : Event N) : SubscriptionTables :=
  match commit site event.snapshots event.now db event.request with
  | .ok db => db
  | .error _ => db

theorem Belongs.after (h : Belongs db hash id face) {event : Event N}
    (haround : event.request.Around id)
    (hdrawn : db.byHash hash = none → event.request.drawn ≠ some hash) :
    Belongs (after site db event) hash id face := by
  unfold Profiles.after
  cases hcommit : Profiles.commit site event.snapshots event.now db event.request with
  | error e => exact h
  | ok db' => exact h.commit haround hdrawn hcommit

/-- A hash that is stored stays stored. -/
theorem Belongs.known (h : Belongs db hash id face) {event : Event N}
    (haround : event.request.Around id) (hknown : db.byHash hash ≠ none) :
    (Profiles.after site db event).byHash hash ≠ none := by
  have hafter : Belongs (Profiles.after site db event) hash id face :=
    h.after haround fun hunknown => absurd hunknown hknown
  have hsome : (db.subscriptions.get? id).isSome := by
    cases h with
    | stored hrow hhash => rw [hrow]; rfl
    | waiting hwaiting hhash =>
      exact absurd (byHash_eq_none.2 fun i r hget => hhash ▸ hwaiting.unused i r hget) hknown
  have hkept : ((Profiles.after site db event).subscriptions.get? id).isSome := by
    unfold Profiles.after
    cases hcommit : Profiles.commit site event.snapshots event.now db event.request with
    | error e => exact hsome
    | ok db' => exact commit_kept hcommit hsome
  intro hunknown
  obtain ⟨u, token, rfl, -, hwaiting⟩ := hafter.waiting_of_unknown hunknown
  rw [hwaiting.missing] at hkept
  cases hkept

/-- Requests around a subscription keep its face. -/
theorem Belongs.run (h : Belongs db hash id face) (events : List (Event N))
    (haround : ∀ event ∈ events, event.request.Around id)
    (hdrawn : db.byHash hash = none → ∀ event ∈ events, event.request.drawn ≠ some hash) :
    Belongs (events.foldl (Profiles.after site) db) hash id face := by
  induction events generalizing db with
  | nil => exact h
  | cons event events ih =>
    have hfirst := haround event List.mem_cons_self
    apply ih
    · exact h.after hfirst fun hunknown => hdrawn hunknown event List.mem_cons_self
    · exact fun e he => haround e (List.mem_cons_of_mem _ he)
    · intro hunknown e he
      have hbefore : db.byHash hash = none := by
        by_contra hknown
        exact h.known hfirst hknown hunknown
      exact hdrawn hbefore e (List.mem_cons_of_mem _ he)

/-- What a token is answered with is not changed by requests on other subscriptions, nor by a
`save` or `preview` of this one; and it is the same in any two states in which the subscription has
one face, whatever its draft and whatever else is stored. -/
theorem answer_isolated (site : Site N) (token : String) :
    (∀ db id face, Belongs db (tokenHash token) id face → ∀ events : List (Event N),
      (∀ event ∈ events, event.request.Around id) →
      (db.byHash (tokenHash token) = none →
        ∀ event ∈ events, event.request.drawn ≠ some (tokenHash token)) →
      ∀ snapshots, answer site snapshots token (events.foldl (Profiles.after site) db) =
        answer site snapshots token db) ∧
    ∀ db db' id id' face, Belongs db (tokenHash token) id face →
      Belongs db' (tokenHash token) id' face → ∀ snapshots snapshots' : Snapshots N,
        snapshots face.userId = snapshots' face.userId →
          answer site snapshots token db = answer site snapshots' token db' := by
  constructor
  · intro db id face h events haround hdrawn snapshots
    rw [h.answer_eq site snapshots, (h.run events haround hdrawn).answer_eq site snapshots]
  · intro db db' id id' face h h' snapshots snapshots' hsame
    rw [h.answer_eq site snapshots, h'.answer_eq site snapshots']
    exact face.answer_congr site token hsame

end Runs

/-- The tables of a user who has a token and no subscription yet. -/
def initializedTables : Except Thrown SubscriptionTables :=
  initializeUserSecrets "u" firstToken 0 .empty

/-- The user makes a subscription of their own, which makes the default one as well. -/
def creation : List (Event ℕ) :=
  [⟨fun _ => .ok oneNode, 1, .create "u"
    ⟨utf16 "phone", "mobile", "00000000-0000-4000-8000-000000000000", none⟩
    ⟨"00000000-0000-4000-8000-000000000001", by decide +kernel⟩ secondToken⟩]

theorem creation_isolated : ∃ db, initializedTables = .ok db ∧
    answer plainSite (fun _ => .ok oneNode) firstToken.1 (creation.foldl (after plainSite) db) =
      answer plainSite (fun _ => .ok oneNode) firstToken.1 db := by
  have htables : (match initializedTables with
      | .ok db => decide (db.subscriptions.rows = [] ∧
        db.subscriptionTokens.get? "u" = some ⟨tokenHash firstToken.1, firstToken.1, 1, 0⟩)
      | .error _ => false) = true := by decide +kernel
  cases h : initializedTables with
  | error e => simp [h] at htables
  | ok db =>
    rw [h] at htables
    obtain ⟨hrows, htoken⟩ := of_decide_eq_true htables
    have hnone : ∀ id, db.subscriptions.get? id = none := by
      intro id
      cases hget : db.subscriptions.get? id with
      | none => rfl
      | some row =>
        have hmem := Table.mem_rows_iff.2 hget
        rw [hrows] at hmem
        cases hmem
    have hwaiting : Pending db "u" ⟨tokenHash firstToken.1, firstToken.1, 1, 0⟩ := by
      refine ⟨htoken, hnone _, ?_, ?_⟩
      · intro id row hget
        rw [hnone] at hget
        cases hget
      · intro id row hget
        rw [hnone] at hget
        cases hget
    refine ⟨db, rfl, ?_⟩
    apply (answer_isolated plainSite firstToken.1).1 db _ _ (.waiting hwaiting rfl) creation
    · intro event hevent
      obtain rfl := List.mem_singleton.1 hevent
      trivial
    · intro _ event hevent
      obtain rfl := List.mem_singleton.1 hevent
      have hne : tokenHash secondToken.1 ≠ tokenHash firstToken.1 := by decide +kernel
      exact fun heq => hne (Option.some.inj heq)

end Bifurcation.Panel.Profiles
