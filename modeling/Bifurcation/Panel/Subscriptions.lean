import Bifurcation.Panel.Machines
import Bifurcation.Panel.Template

/-!
# Subscriptions

`subscription/profiles.ts`, with the token row of `subscription/credentials.ts` and the reset of
`subscription/store.ts`. A user has one token row; the subscription `default:<user>` carries the
same token, and named subscriptions carry their own. A column whose name ends in `Ciphertext`
holds the encryption of what the field here holds, and decryption gives it back.

The unique indices of the tables are fields, so every write checks them. A call is given the
tokens and ids it draws, the time, and the snapshot of each user as `subscriptionSnapshot` answers
during the call.
-/

namespace Bifurcation.Panel

open Javascript

/-! ## Drawn values -/

def isHex (c : Char) : Bool := c.isDigit || ('a' ≤ c && c ≤ 'f') || ('A' ≤ c && c ≤ 'F')

/-- `z.uuid()`. -/
def isUuid (s : String) : Bool :=
  let groups := s.toList.splitOn '-'
  (groups.map List.length = [8, 4, 4, 4, 12] && groups.all (·.all isHex) &&
    ((groups.getD 2 []).head?.any fun c => '1' ≤ c && c ≤ '8') &&
    ((groups.getD 3 []).head?.any fun c => "89abAB".toList.contains c)) ||
  s = "00000000-0000-0000-0000-000000000000" || s = "ffffffff-ffff-ffff-ffff-ffffffffffff"

/-- What `newId` draws. -/
abbrev NewId := { s : String // isUuid s = true }

/-- `/^bf_sub_[A-Za-z0-9_-]{43}$/`. -/
def isSubscriptionToken (s : String) : Bool :=
  "bf_sub_".toList.isPrefixOf s.toList && (s.toList.drop 7).length = 43 &&
    (s.toList.drop 7).all isTokenChar

/-- What `newToken("bf_sub_")` draws. -/
abbrev NewToken := { s : String // isSubscriptionToken s = true }

/-! ## Tables -/

structure SubscriptionRow where
  userId : String
  name : JsString
  preset : String
  requestKey : String
  draft : SubscriptionDraft
  published : Option SubscriptionDraft := none
  version : Int := 1
  publishedVersion : Int := 0
  legacy : Bool := false
  tokenHash : String
  token : String
  generation : Int := 1
  enabled : Bool := true
  createdAt : Int
  updatedAt : Int
  lastFetchedAt : Option Int := none
  deletedAt : Option Int := none
deriving DecidableEq

/-- A row of `subscription_tokens`. -/
structure TokenRow where
  tokenHash : String
  token : String
  generation : Int := 1
  changedAt : Int
deriving DecidableEq

/-- A row of `subscription_previews`. -/
structure SubscriptionPreviewRow where
  subscriptionId : String
  version : Int
  digest : String
  expiresAt : Int
  published : Bool := false
deriving DecidableEq

/-- Two rows that the unique indices allow beside each other. -/
def SubscriptionRow.Apart (row other : SubscriptionRow) : Prop :=
  row.tokenHash ≠ other.tokenHash ∧ (row.userId, row.requestKey) ≠ (other.userId, other.requestKey)

instance (row other : SubscriptionRow) : Decidable (row.Apart other) :=
  inferInstanceAs (Decidable (_ ∧ _))

structure SubscriptionTables where
  subscriptions : Table String SubscriptionRow
  subscriptionTokens : Table String TokenRow
  subscriptionPreviews : Table String SubscriptionPreviewRow
  apart : ∀ x ∈ subscriptions.rows, ∀ y ∈ subscriptions.rows, x.1 ≠ y.1 → x.2.Apart y.2
  distinct : ∀ x ∈ subscriptionTokens.rows, ∀ y ∈ subscriptionTokens.rows, x.1 ≠ y.1 →
    x.2.tokenHash ≠ y.2.tokenHash

namespace SubscriptionTables

def empty : SubscriptionTables where
  subscriptions := .empty
  subscriptionTokens := .empty
  subscriptionPreviews := .empty
  apart := by intro x hx; cases hx
  distinct := by intro x hx; cases hx

/-- The indices of `subscriptions` allow this row under this id. -/
def Admits (db : SubscriptionTables) (id : String) (row : SubscriptionRow) : Prop :=
  ∀ x ∈ db.subscriptions.rows, x.1 ≠ id → x.2.Apart row

instance (db : SubscriptionTables) (id : String) (row : SubscriptionRow) :
    Decidable (db.Admits id row) := inferInstanceAs (Decidable (∀ x ∈ _, _))

/-- Insert or update a row. -/
def writeRow (id : String) (row : SubscriptionRow) (db : SubscriptionTables) :
    Except Thrown SubscriptionTables :=
  if h : db.Admits id row then
    .ok { db with
      subscriptions := db.subscriptions.set id row
      apart := by
        have hflip : ∀ {a b : SubscriptionRow}, a.Apart b → b.Apart a :=
          fun hab => ⟨hab.1.symm, hab.2.symm⟩
        have hcases : ∀ x ∈ (db.subscriptions.set id row).rows,
            x = (id, row) ∨ x ∈ db.subscriptions.rows ∧ x.1 ≠ id := by
          intro x hx
          have hget := Table.get?_of_mem hx
          rw [Table.get?_set] at hget
          by_cases hid : x.1 = id
          · rw [if_pos hid] at hget
            exact .inl (Prod.ext hid (Option.some.inj hget).symm)
          · rw [if_neg hid] at hget
            exact .inr ⟨Table.mem_rows_iff.2 hget, hid⟩
        intro x hx y hy hne
        rcases hcases x hx with rfl | ⟨hx, hxid⟩
        · rcases hcases y hy with rfl | ⟨hy, hyid⟩
          · exact absurd rfl hne
          · exact hflip (h y hy hyid)
        · rcases hcases y hy with rfl | ⟨hy, -⟩
          · exact h x hx hxid
          · exact db.apart x hx y hy hne }
  else .error .constraint

/-- Insert or update the token row of a user. -/
def writeToken (userId : String) (row : TokenRow) (db : SubscriptionTables) :
    Except Thrown SubscriptionTables :=
  if h : ∀ x ∈ db.subscriptionTokens.rows, x.1 ≠ userId → x.2.tokenHash ≠ row.tokenHash then
    .ok { db with
      subscriptionTokens := db.subscriptionTokens.set userId row
      distinct := by
        have hcases : ∀ x ∈ (db.subscriptionTokens.set userId row).rows,
            x = (userId, row) ∨ x ∈ db.subscriptionTokens.rows ∧ x.1 ≠ userId := by
          intro x hx
          have hget := Table.get?_of_mem hx
          rw [Table.get?_set] at hget
          by_cases hid : x.1 = userId
          · rw [if_pos hid] at hget
            exact .inl (Prod.ext hid (Option.some.inj hget).symm)
          · rw [if_neg hid] at hget
            exact .inr ⟨Table.mem_rows_iff.2 hget, hid⟩
        intro x hx y hy hne
        rcases hcases x hx with rfl | ⟨hx, hxid⟩
        · rcases hcases y hy with rfl | ⟨hy, hyid⟩
          · exact absurd rfl hne
          · exact (h y hy hyid).symm
        · rcases hcases y hy with rfl | ⟨hy, -⟩
          · exact h x hx hxid
          · exact db.distinct x hx y hy hne }
  else .error .constraint

def withPreviews (previews : Table String SubscriptionPreviewRow) (db : SubscriptionTables) :
    SubscriptionTables := { db with subscriptionPreviews := previews }

/-- The subscription with a token hash. -/
def byHash (db : SubscriptionTables) (hash : String) : Option (String × SubscriptionRow) :=
  db.subscriptions.rows.find? fun x => x.2.tokenHash = hash

/-- The user whose token row has a token hash. -/
def ownerByHash (db : SubscriptionTables) (hash : String) : Option (String × TokenRow) :=
  db.subscriptionTokens.rows.find? fun x => x.2.tokenHash = hash

end SubscriptionTables

namespace Profiles

/-- What the store calls outside the tables. -/
structure Site (N : Type) where
  js : Runtime N
  publicUrl : String
  /-- `default.template.json`. -/
  defaultTemplate : Members N

/-- What `subscriptionSnapshot` answers for each user. -/
abbrev Snapshots (N : Type) := String → Except Thrown (Snapshot N)

section Store

variable {N : Type} (site : Site N) (snapshots : Snapshots N)

/-! ## Initial drafts -/

def unfiltered (groupTag : String) (tags staticMembers : List String) : Binding where
  groupTag := utf16 groupTag
  regions := []
  tags := tags.map utf16
  protocols := []
  machineIds := []
  excludeMachineIds := []
  staticMembers := staticMembers.map utf16

def defaultDraft (preset : String) : SubscriptionDraft where
  templateJson := stringify site.js (.obj (
    if preset = "mobile" then
      set (utf16 "inbounds") (.arr [.obj (jsObject
        [("type", jsText "tun"), ("tag", jsText "tun-in"),
          ("address", .arr [jsText "172.19.0.1/30"]), ("auto_route", .bool true),
          ("stack", jsText "mixed")])]) site.defaultTemplate
    else site.defaultTemplate))
  bindings :=
    [unfiltered "select" [] ["auto", "direct"], unfiltered "auto" [] [],
      unfiltered "select-ai" ["ai"] ["auto-ai"], unfiltered "auto-ai" ["ai"] [],
      unfiltered "select-game" ["game"] ["auto-game"], unfiltered "auto-game" ["game"] []]

def legacyDraft (secrets : ProxySecrets) : SubscriptionDraft :=
  let outbounds : List (Members N) :=
    [jsObject [("type", jsText "selector"), ("tag", jsText "proxy"), ("default", jsText "auto"),
        ("outbounds", .arr [])],
      jsObject [("type", jsText "urltest"), ("tag", jsText "auto"),
        ("url", jsText "https://www.gstatic.com/generate_204"), ("interval", jsText "3m"),
        ("tolerance", jsNat site.js 50), ("outbounds", .arr [])],
      jsObject [("type", jsText "direct"), ("tag", jsText "direct")]]
  let route : Members N :=
    jsObject [("default_domain_resolver", jsText "dns-local"), ("final", jsText "proxy")]
  let template := set (utf16 "route") (.obj route)
    (set (utf16 "outbounds") (.arr (outbounds.map .obj)) (renderClient site.js [] secrets false))
  ⟨stringify site.js (.obj template), [unfiltered "proxy" [] ["auto"], unfiltered "auto" [] []]⟩

/-! ## Tokens -/

def defaultId (userId : String) : String := "default:" ++ userId

/-- The token row of `initializeUserSecrets`. -/
def initializeUserSecrets (userId : String) (token : NewToken) (now : Int)
    (db : SubscriptionTables) : Except Thrown SubscriptionTables :=
  match db.subscriptionTokens.get? userId with
  | some _ => .ok db
  | none => db.writeToken userId
      { tokenHash := tokenHash token.1, token := token.1, changedAt := now }

def legacyRow (userId : String) (token : TokenRow) (draft : SubscriptionDraft) :
    SubscriptionRow where
  userId
  name := utf16 "默认订阅"
  preset := "legacy"
  requestKey := "legacy"
  legacy := true
  draft
  publishedVersion := 1
  tokenHash := token.tokenHash
  token := token.token
  generation := token.generation
  createdAt := token.changedAt
  updatedAt := token.changedAt

def ensureLegacy (userId : String) (db : SubscriptionTables) : Except Thrown SubscriptionTables :=
  match db.subscriptionTokens.get? userId, db.subscriptions.get? (defaultId userId) with
  | some token, none => do
    let snapshot ← snapshots userId
    let row := legacyRow userId token (legacyDraft site snapshot.secrets)
    -- `onConflictDoNothing`: a row the indices refuse is left out.
    if db.Admits (defaultId userId) row then db.writeRow (defaultId userId) row else return db
  | _, _ => .ok db

def syncLegacyToken (userId : String) (db : SubscriptionTables) :
    Except Thrown SubscriptionTables :=
  match db.subscriptionTokens.get? userId, db.subscriptions.get? (defaultId userId) with
  | some token, some row => db.writeRow (defaultId userId)
      { row with
        tokenHash := token.tokenHash
        token := token.token
        generation := token.generation }
  | _, _ => .ok db

/-- The transaction of `resetToken`. -/
def replaceToken (userId : String) (token : NewToken) (now : Int) (db : SubscriptionTables) :
    Except Thrown SubscriptionTables := do
  let previous ← found (.app "SUBSCRIPTION_NOT_READY" (utf16 "订阅尚未准备") 409)
    (db.subscriptionTokens.get? userId)
  db.writeToken userId
    { tokenHash := tokenHash token.1
      token := token.1
      generation := previous.generation + 1
      changedAt := now }

/-! ## Reading -/

def getRow (db : SubscriptionTables) (userId id : String) : Except Thrown SubscriptionRow :=
  found (.app "SUBSCRIPTION_NOT_FOUND" (utf16 "订阅不存在") 404)
    ((db.subscriptions.get? id).filter fun row => row.userId = userId ∧ row.deletedAt = none)

def checkVersion (row : SubscriptionRow) (expected : Int) : Except Thrown Unit :=
  failIf (row.version ≠ expected)
    (.app "VERSION_CONFLICT" (utf16 "订阅已变化，请重新加载后再保存；当前编辑内容未被覆盖") 409)

def render (row : SubscriptionRow) : Except Thrown Rendered := do
  let snapshot ← snapshots row.userId
  failIf (snapshot.active = false) (.app "SUBSCRIPTION_DISABLED" (utf16 "账号已禁用") 403)
  match row.published with
  | some draft => renderSubscription site.js draft snapshot
  | none => do
    failIf (row.legacy = false)
      (.app "SUBSCRIPTION_UNPUBLISHED" (utf16 "请先预览并发布订阅配置") 422)
    -- Migrated links keep their original client behaviour until adoption.
    let nodes := snapshot.nodes.filter fun node => node.available
    return ⟨jsonText site.js (renderClient site.js nodes snapshot.secrets snapshot.blocked),
      if snapshot.blocked then 0 else nodes.length⟩

structure ProfileDto where
  id : String
  name : JsString
  preset : String
  version : Int
  publishedVersion : Int
  enabled : Bool
  legacy : Bool
  generation : Int
  url : String
  draft : Option SubscriptionDraft
  configJson : JsString
  generationError : JsString
  nodeCount : ℕ
  lastFetchedAt : Option Int

/-- `render` with an `AppError` as text; other exceptions are thrown on. -/
def generation (row : SubscriptionRow) : Except Thrown (Rendered × JsString) :=
  match render site snapshots row with
  | .ok rendered => .ok (rendered, [])
  | .error (.app _ message _) => .ok (⟨[], 0⟩, message)
  | .error e => .error e

def dto (id : String) (row : SubscriptionRow) (detail : Bool) : Except Thrown ProfileDto := do
  let (rendered, generationError) ← generation site snapshots row
  failIf (detail = true ∧ row.draft.accepted = false) .zod
  return {
    id
    name := row.name
    preset := row.preset
    version := row.version
    publishedVersion := row.publishedVersion
    enabled := row.enabled
    legacy := row.legacy
    generation := row.generation
    url := if detail then site.publicUrl ++ "/s/" ++ row.token else ""
    draft := if detail then some row.draft else none
    configJson := if detail then rendered.configJson else []
    generationError
    nodeCount := rendered.nodeCount
    lastFetchedAt := row.lastFetchedAt }

def get (userId id : String) (db : SubscriptionTables) : Except Thrown ProfileDto := do
  let row ← getRow db userId id
  dto site snapshots id row true

/-- The profiles of a user that are not deleted, in the order of creation. -/
def profilesOf (userId : String) (db : SubscriptionTables) : List (String × SubscriptionRow) :=
  (db.subscriptions.rows.filter fun x => x.2.userId = userId ∧ x.2.deletedAt = none).insertionSort
    fun x y => x.2.createdAt < y.2.createdAt ∨ x.2.createdAt = y.2.createdAt ∧ x.1 ≤ y.1

/-- The default subscription is committed before the profiles are read. -/
def list (userId : String) (db : SubscriptionTables) :
    Except Thrown (List ProfileDto) × SubscriptionTables :=
  match ensureLegacy site snapshots userId db with
  | .error e => (.error e, db)
  | .ok db => ((profilesOf userId db).mapM fun x => dto site snapshots x.1 x.2 false, db)

/-! ## Writing -/

structure CreateInput where
  name : JsString
  preset : String
  requestKey : String
  copyFromId : Option String

/-- `nameSchema`. -/
def parseName (name : JsString) : Except Thrown JsString := do
  failIf (¬ (1 ≤ (trim name).length ∧ (trim name).length ≤ 64)) .zod
  return trim name

/-- The subscription a copy is made from. -/
def copySource (db : SubscriptionTables) (userId : String) (copyFromId : Option String) :
    Except Thrown (Option SubscriptionRow) :=
  match copyFromId with
  | some id => if id = "" then .ok none else (getRow db userId id).map some
  | none => .ok none

def createdRow (userId : String) (name : JsString) (input : CreateInput)
    (source : Option SubscriptionRow) (token : NewToken) (now : Int) : SubscriptionRow where
  userId
  name
  preset := (source.map SubscriptionRow.preset).getD input.preset
  requestKey := input.requestKey
  draft := (source.map SubscriptionRow.draft).getD (defaultDraft site input.preset)
  tokenHash := tokenHash token.1
  token := token.1
  createdAt := now
  updatedAt := now

/-- A new subscription, once no earlier request had the key. -/
def insertNew (userId : String) (name : JsString) (input : CreateInput) (id : NewId)
    (token : NewToken) (now : Int) (db : SubscriptionTables) :
    Except Thrown (ProfileDto × SubscriptionTables) := do
  failIf (20 ≤ (profilesOf userId db).length)
    (.app "SUBSCRIPTION_LIMIT" (utf16 "最多可创建 20 条订阅") 422)
  let source ← copySource db userId input.copyFromId
  failIf (db.subscriptions.get? id.1).isSome .constraint
  let db ← db.writeRow id.1 (createdRow site userId name input source token now)
  let profile ← get site snapshots userId id.1 db
  return (profile, db)

def create (userId : String) (input : CreateInput) (id : NewId) (token : NewToken) (now : Int)
    (db : SubscriptionTables) : Except Thrown (ProfileDto × SubscriptionTables) := do
  let name ← parseName input.name
  failIf (isUuid input.requestKey = false) .zod
  failIf (input.preset ≠ "desktop" ∧ input.preset ≠ "mobile") .zod
  let db ← ensureLegacy site snapshots userId db
  match db.subscriptions.rows.find? fun x =>
      x.2.userId = userId ∧ x.2.requestKey = input.requestKey with
  | some previous => do
    let profile ← get site snapshots userId previous.1 db
    return (profile, db)
  | none => insertNew site snapshots userId name input id token now db

def save (userId id : String) (expectedVersion : Int) (name : JsString)
    (input : SubscriptionDraft) (now : Int) (db : SubscriptionTables) :
    Except Thrown (ProfileDto × SubscriptionTables) := do
  failIf (input.accepted = false) .zod
  let row ← getRow db userId id
  checkVersion row expectedVersion
  let name ← parseName name
  let db ← db.writeRow id
    { row with name, draft := input, version := row.version + 1, updatedAt := now }
  let profile ← get site snapshots userId id db
  return (profile, db)

structure PreviewDto where
  rendered : Rendered
  previewId : String
  digest : String
  expiresAt : Int

/-- The digest of a rendered configuration. -/
def digestOf (rendered : Rendered) : String := sha256 (bufferFrom rendered.configJson)

def preview (userId id : String) (expectedVersion : Int) (previewId : NewId) (now : Int)
    (db : SubscriptionTables) : Except Thrown (PreviewDto × SubscriptionTables) := do
  let row ← getRow db userId id
  checkVersion row expectedVersion
  failIf (row.draft.accepted = false) .zod
  let snapshot ← snapshots userId
  let rendered ← renderSubscription site.js row.draft snapshot
  let expiresAt := now + 5 * 60000
  let kept := db.subscriptionPreviews.deleteWhere fun _ p => p.expiresAt < now - 24 * 60 * 60000
  let previews ← found .constraint (kept.insert? previewId.1
    { subscriptionId := id, version := row.version, digest := digestOf rendered, expiresAt })
  return (⟨rendered, previewId.1, digestOf rendered, expiresAt⟩, db.withPreviews previews)

/-- What `publish` writes once the preview is checked. -/
def publishRow (id previewId : String) (row : SubscriptionRow) (preview : SubscriptionPreviewRow)
    (now : Int) (db : SubscriptionTables) : Except Thrown SubscriptionTables := do
  let db ← db.writeRow id
    { row with
      published := some row.draft
      publishedVersion := row.version + 1
      version := row.version + 1
      legacy := false
      updatedAt := now }
  return db.withPreviews (db.subscriptionPreviews.set previewId { preview with published := true })

def publish (userId id : String) (expectedVersion : Int) (previewId : String) (now : Int)
    (db : SubscriptionTables) : Except Thrown (ProfileDto × SubscriptionTables) := do
  let row ← getRow db userId id
  let preview ← found (.app "PREVIEW_NOT_FOUND" (utf16 "请先生成预览") 422)
    ((db.subscriptionPreviews.get? previewId).filter fun p => p.subscriptionId = id)
  if preview.published then do
    let profile ← get site snapshots userId id db
    return (profile, db)
  else do
    checkVersion row expectedVersion
    failIf (preview.version ≠ row.version ∨ preview.expiresAt ≤ now)
      (.app "PREVIEW_EXPIRED" (utf16 "草稿已变化或预览已过期，请重新预览") 409)
    let snapshot ← snapshots userId
    let current ← renderSubscription site.js row.draft snapshot
    failIf (digestOf current ≠ preview.digest)
      (.app "STALE_POLICY" (utf16 "节点属性、配置或授权已变化，请重新预览") 409)
    let db ← publishRow id previewId row preview now db
    let profile ← get site snapshots userId id db
    return (profile, db)

/-- The actions `update` accepts. -/
inductive Action where
  | pause
  | resume
  | rotate
  | delete
deriving DecidableEq

/-- The row an action leaves. -/
def updatedRow (row : SubscriptionRow) (action : Action) (token : NewToken) (now : Int) :
    SubscriptionRow :=
  let row := { row with version := row.version + 1, updatedAt := now }
  match action with
  | .pause => { row with enabled := false }
  | .resume => { row with enabled := true }
  | .rotate =>
    { row with
      tokenHash := tokenHash token.1
      token := token.1
      generation := row.generation + 1 }
  | .delete => { row with deletedAt := some now, enabled := false }

/-- A rotation of the default subscription reaches the token row, where there is one. -/
def syncTokenRow (userId id : String) (action : Action) (updated : SubscriptionRow) (now : Int)
    (db : SubscriptionTables) : Except Thrown SubscriptionTables :=
  if action = .rotate ∧ id = defaultId userId ∧ (db.subscriptionTokens.get? userId).isSome then
    db.writeToken userId
      { tokenHash := updated.tokenHash
        token := updated.token
        generation := updated.generation
        changedAt := now }
  else .ok db

def update (userId id : String) (expectedVersion : Int) (action : Action) (token : NewToken)
    (now : Int) (db : SubscriptionTables) : Except Thrown (ProfileDto × SubscriptionTables) := do
  let row ← getRow db userId id
  checkVersion row expectedVersion
  let updated := updatedRow row action token now
  let db ← db.writeRow id updated
  let db ← syncTokenRow userId id action updated now db
  let profile ← dto site snapshots id updated true
  return (profile, db)

/-! ## Serving -/

/-- The subscription a token is served from, once the default one exists. -/
def resolve (token : String) (db : SubscriptionTables) :
    Except Thrown (Option (String × SubscriptionRow)) × SubscriptionTables :=
  let hash := tokenHash token
  match db.byHash hash with
  | some x => (.ok (some x), db)
  | none =>
    match db.ownerByHash hash with
    | none => (.ok none, db)
    | some owner =>
      match ensureLegacy site snapshots owner.1 db with
      | .error e => (.error e, db)
      | .ok db => (.ok (db.byHash hash), db)

/-- The configuration of a subscription that is served. -/
def serve (row : SubscriptionRow) : Except Thrown Rendered := do
  failIf (row.deletedAt ≠ none) (.app "SUBSCRIPTION_NOT_FOUND" (utf16 "订阅不存在") 404)
  failIf (row.enabled = false) (.app "SUBSCRIPTION_PAUSED" (utf16 "订阅已暂停") 403)
  render site snapshots row

/-- The answer to a client. -/
def answer (token : String) (db : SubscriptionTables) : Except Thrown JsString := do
  failIf (isSubscriptionToken token = false)
    (.app "SUBSCRIPTION_NOT_FOUND" (utf16 "订阅不存在") 404)
  let found? ← (resolve site snapshots token db).1
  let (_, row) ← found (.app "SUBSCRIPTION_NOT_FOUND" (utf16 "订阅不存在") 404) found?
  let result ← serve site snapshots row
  return result.configJson

/-- The tables after the answer: the time of the fetch is noted when there was one. -/
def afterAnswer (token : String) (now : Int) (db : SubscriptionTables) : SubscriptionTables :=
  if isSubscriptionToken token = false then db
  else
    let resolved := resolve site snapshots token db
    match resolved.1, answer site snapshots token db with
    | .ok (some (id, row)), .ok _ =>
      match resolved.2.writeRow id { row with lastFetchedAt := some now } with
      | .ok db => db
      | .error _ => resolved.2
    | _, _ => resolved.2

end Store

end Profiles

end Bifurcation.Panel
