import Bifurcation.Panel.Machines
import Bifurcation.Panel.SingBox
import Bifurcation.Panel.Time

/-!
# Quotas and the policy revision

`configuration/policy.ts`, with the proxy identity of `subscription/credentials.ts` and its reset
in `subscription/store.ts`. A refresh walks through the active users in the order of their ids,
stores what each has used in the current month, and gives the credentials of those below their
limit. The revision counts the changes of the set of credentials given, which a fingerprint
stands for.

**Secrets.** A stored secret is encrypted under the key of the panel; a `Vault` says what reading
one gives. A call is given the ciphertexts of the secrets it draws.

Main results: `refresh_frame` (a refresh writes credentials, quotas and the policy row only),
`refresh_eq_ok`, which inverts a refresh that succeeds, and `exists_refresh`, when one does.
-/

namespace Bifurcation.Panel

open Javascript

/-- What the panel's key gives: `JSON.parse(decryptSecret(text))` of a proxy identity. -/
structure Vault where
  secretsOf : String → Option ProxySecrets

/-! ## Proxy identities -/

/-- The part of `initializeUserSecrets` that writes `proxy_credentials`. -/
def initializeUserSecrets (fresh : String → String) (userId : String) (db : Database) : Database :=
  match db.proxyCredentials.get? userId with
  | some _ => db
  | none => { db with
      proxyCredentials := db.proxyCredentials.set userId { secretsCiphertext := fresh userId } }

structure Credentials where
  generation : Int
  secrets : ProxySecrets
deriving DecidableEq

def readProxyCredentials (vault : Vault) (userId : String) (db : Database) :
    Except PanelError Credentials := do
  let row ← found (.app "SUBSCRIPTION_NOT_READY" "代理身份正在准备，请稍后刷新" 409)
    (db.proxyCredentials.get? userId)
  let secrets ← found .ciphertext (vault.secretsOf row.secretsCiphertext)
  return ⟨row.generation, secrets⟩

/-- The transaction of `resetProxyCredentials`. -/
def resetProxyCredentials (vault : Vault) (fresh : String → String) (userId : String)
    (db : Database) : Except PanelError Database := do
  let previous ← readProxyCredentials vault userId db
  return { db with
    proxyCredentials := db.proxyCredentials.set userId
      { secretsCiphertext := fresh userId, generation := previous.generation + 1 } }

/-! ## Quotas -/

structure Quota where
  used : Int
  limit : Option Int
  blocked : Bool
  period : String
deriving DecidableEq

/-- The bytes of a bucket, in both directions. -/
def BucketRow.total (row : BucketRow) : Int := row.uploadBytes + row.downloadBytes

/-- A month bucket of a user. A `NaN` start is equal to no stored one. -/
def monthOf (userId : String) (start : Option Int) (key : BucketKey) : Bool :=
  key.userId = userId && key.grain = .month && some key.bucketStart = start

/-- What a user has used in the month of a time, on all machines. -/
def usedBytes (userId : String) (now : Int) (db : Database) : Int :=
  db.usageBuckets.sumBy fun key row =>
    if monthOf userId (monthStart now) key then row.total else 0

def userQuota (userId : String) (now : Int) (db : Database) : Except PanelError Quota := do
  let user ← found (.app "NOT_FOUND" "账号不存在" 404) (db.users.get? userId)
  let used := usedBytes userId now db
  failIf (used > maxInt64) (.app "USAGE_OVERFLOW" "用户月用量超过计量范围" 409)
  return { used, limit := user.monthlyLimitBytes
           blocked := user.monthlyLimitBytes.any fun limit => decide (limit ≤ used)
           period := monthPeriod now }

/-! ## The refresh -/

/-- `String(n)`. -/
def integerText (n : Int) : JsString := utf16 (toString n)

/-- `JSON.stringify(fingerprintUsers)`. -/
def fingerprintText (users : List (String × Int)) : JsString :=
  utf16 "[" ++ join (users.map fun user =>
    utf16 "[" ++ quote (utf16 user.1) ++ utf16 "," ++ integerText user.2 ++ utf16 "]") ++ utf16 "]"

def fingerprintOf (users : List (String × Int)) : String :=
  sha256 (bufferFrom (fingerprintText users))

/-- What the loop of `refresh` has gathered. -/
structure Refreshing where
  db : Database
  authorized : List AuthorizedUser
  fingerprintUsers : List (String × Int)

/-- The body of the loop. -/
def refreshUser (vault : Vault) (fresh : String → String) (now : Int) (state : Refreshing)
    (userId : String) : Except PanelError Refreshing := do
  let db := initializeUserSecrets fresh userId state.db
  let credentials ← readProxyCredentials vault userId db
  let quota ← userQuota userId now db
  let db := { db with
    quotaStates := db.quotaStates.set (userId, quota.period)
      { usedBytes := quota.used, blocked := quota.blocked } }
  if quota.blocked then return { state with db }
  else return { db
                authorized := state.authorized ++ [⟨utf16 userId, credentials.secrets⟩]
                fingerprintUsers := state.fingerprintUsers ++ [(userId, credentials.generation)] }

/-- The ids of the active users, in ascending order. -/
def activeUsers (db : Database) : List String :=
  ((db.users.rows.filter fun user => user.2.status = .active).map Prod.fst).insertionSort (· ≤ ·)

/-- The row of `policy_state` after a refresh. It is written when the fingerprint or the month
has changed. -/
def nextPolicy (previous : Option PolicyRow) (fingerprint period : String) (now : Int) :
    PolicyRow :=
  match previous with
  | none => ⟨1, fingerprint, period, now⟩
  | some previous =>
    let revision := previous.revision + if previous.fingerprint = fingerprint then 0 else 1
    if previous.fingerprint ≠ fingerprint ∨ previous.period ≠ period then
      ⟨revision, fingerprint, period, now⟩
    else previous

def refresh (vault : Vault) (fresh : String → String) (now : Int) (db : Database) :
    Except PanelError (AuthorizationLayer × Database) := do
  let state ← (activeUsers db).foldlM (refreshUser vault fresh now) ⟨db, [], []⟩
  let policy := nextPolicy state.db.policyState (fingerprintOf state.fingerprintUsers)
    (monthPeriod now) now
  failIf (policy.revision > maxSafeInteger) (.app "POLICY_OVERFLOW" "授权版本超出范围" 409)
  return ({ policyRevision := integerText policy.revision, users := state.authorized },
    { state.db with policyState := some policy })

/-! ## What a refresh writes -/

/-- Two databases that differ in what a refresh writes. -/
def SameBut (db db' : Database) : Prop :=
  ∃ credentials quotas policy, db' =
    { db with proxyCredentials := credentials, quotaStates := quotas, policyState := policy }

theorem SameBut.refl (db : Database) : SameBut db db := ⟨_, _, _, rfl⟩

theorem SameBut.trans {db db' db'' : Database} (h : SameBut db db') (h' : SameBut db' db'') :
    SameBut db db'' := by
  obtain ⟨_, _, _, rfl⟩ := h
  obtain ⟨_, _, _, rfl⟩ := h'
  exact ⟨_, _, _, rfl⟩

theorem SameBut.usageBuckets {db db' : Database} (h : SameBut db db') :
    db'.usageBuckets = db.usageBuckets := by
  obtain ⟨_, _, _, rfl⟩ := h
  rfl

theorem SameBut.usageStreams {db db' : Database} (h : SameBut db db') :
    db'.usageStreams = db.usageStreams := by
  obtain ⟨_, _, _, rfl⟩ := h
  rfl

section Frame

variable {vault : Vault} {fresh : String → String} {now : Int}

theorem sameBut_initialized (fresh : String → String) (userId : String) (db : Database) :
    SameBut db (initializeUserSecrets fresh userId db) := by
  unfold initializeUserSecrets
  cases db.proxyCredentials.get? userId with
  | none => exact ⟨_, _, _, rfl⟩
  | some row => exact .refl db

theorem sameBut_refreshUser {state state' : Refreshing} {userId : String}
    (h : refreshUser vault fresh now state userId = .ok state') : SameBut state.db state'.db := by
  simp only [refreshUser, bind_eq_ok] at h
  obtain ⟨credentials, -, quota, -, h⟩ := h
  obtain ⟨c, q, p, heq⟩ := sameBut_initialized fresh userId state.db
  by_cases hblocked : quota.blocked = true
  · rw [if_pos hblocked, pure_eq_ok] at h
    subst h
    rw [heq]
    exact ⟨_, _, _, rfl⟩
  · rw [if_neg hblocked, pure_eq_ok] at h
    subst h
    rw [heq]
    exact ⟨_, _, _, rfl⟩

/-- **A refresh writes credentials, quotas and the policy row only.** -/
theorem refresh_frame {db db' : Database} {authorization : AuthorizationLayer}
    (h : refresh vault fresh now db = .ok (authorization, db')) : SameBut db db' := by
  simp only [refresh, bind_eq_ok, failIf_eq_ok, pure_eq_ok, exists_const, Prod.mk.injEq] at h
  obtain ⟨state, hloop, -, -, rfl⟩ := h
  have hsame : SameBut db state.db :=
    foldlM_induction (I := fun s : Refreshing => SameBut db s.db)
      (fun s userId s' hs hstep => hs.trans (sameBut_refreshUser hstep)) hloop (.refl db)
  exact hsame.trans ⟨_, _, _, rfl⟩

end Frame

/-! ## What a refresh grants -/

/-- The generation of a proxy identity. One that is created has the first. -/
def generationOf (userId : String) (db : Database) : Int :=
  ((db.proxyCredentials.get? userId).map CredentialRow.generation).getD 1

/-- A user is below the monthly limit. -/
def allowed (now : Int) (db : Database) (userId : String) : Bool :=
  (db.users.get? userId).any fun user =>
    user.monthlyLimitBytes.all fun limit => decide (usedBytes userId now db < limit)

/-- The users a refresh gives credentials, with the generations of these. -/
def grants (now : Int) (db : Database) : List (String × Int) :=
  ((activeUsers db).filter (allowed now db)).map fun userId => (userId, generationOf userId db)

/-- Every stored secret can be read. -/
def Vault.Reads (vault : Vault) (db : Database) : Prop :=
  ∀ userId row, db.proxyCredentials.get? userId = some row →
    (vault.secretsOf row.secretsCiphertext).isSome

/-- Every secret that is drawn can be read. -/
def Vault.ReadsFresh (vault : Vault) (fresh : String → String) : Prop :=
  ∀ userId, (vault.secretsOf (fresh userId)).isSome

section Grants

variable {vault : Vault} {fresh : String → String} {now : Int} {db : Database}

theorem policyState_initialized (userId : String) :
    (initializeUserSecrets fresh userId db).policyState = db.policyState := by
  unfold initializeUserSecrets
  split <;> rfl

/-- An identity that is created has the generation that counts for a missing one. -/
theorem generationOf_initialized (userId userId' : String) :
    generationOf userId' (initializeUserSecrets fresh userId db) = generationOf userId' db := by
  unfold initializeUserSecrets generationOf
  cases hrow : db.proxyCredentials.get? userId with
  | some row => rfl
  | none =>
    dsimp only
    rw [Table.get?_set]
    split_ifs with heq
    · rw [heq, hrow]
      rfl
    · rfl

theorem reads_initialized (hreads : vault.Reads db) (hfresh : vault.ReadsFresh fresh)
    (userId : String) : vault.Reads (initializeUserSecrets fresh userId db) := by
  unfold initializeUserSecrets
  cases hrow : db.proxyCredentials.get? userId with
  | some row => exact hreads
  | none =>
    intro userId' row' hrow'
    dsimp only at hrow'
    rw [Table.get?_set] at hrow'
    split_ifs at hrow'
    · obtain rfl := Option.some.inj hrow'
      exact hfresh userId
    · exact hreads userId' row' hrow'

/-- After `initializeUserSecrets` there are secrets, of the generation that counts. -/
theorem readProxyCredentials_initialized (hreads : vault.Reads db)
    (hfresh : vault.ReadsFresh fresh) (userId : String) :
    ∃ secrets, readProxyCredentials vault userId (initializeUserSecrets fresh userId db) =
      .ok ⟨generationOf userId db, secrets⟩ := by
  have hafter := reads_initialized hreads hfresh userId
  have hgeneration : generationOf userId (initializeUserSecrets fresh userId db) =
      generationOf userId db := generationOf_initialized userId userId
  cases hrow : (initializeUserSecrets fresh userId db).proxyCredentials.get? userId with
  | none =>
    exfalso
    unfold initializeUserSecrets at hrow
    cases hold : db.proxyCredentials.get? userId with
    | some row => simp [hold] at hrow
    | none => simp [hold] at hrow
  | some row =>
    obtain ⟨secrets, hsecrets⟩ := Option.isSome_iff_exists.1 (hafter userId row hrow)
    refine ⟨secrets, ?_⟩
    rw [generationOf, hrow] at hgeneration
    simp only [readProxyCredentials, hrow, found, ok_bind, hsecrets]
    rw [← hgeneration]
    rfl

/-- What the loop has done after some users. -/
structure Granted (now : Int) (db : Database) (done : List String) (state : Refreshing) : Prop where
  same : SameBut db state.db
  policy : state.db.policyState = db.policyState
  generation : ∀ userId, generationOf userId state.db = generationOf userId db
  fingerprint : state.fingerprintUsers =
    (done.filter (allowed now db)).map fun userId => (userId, generationOf userId db)
  authorized : state.authorized.map AuthorizedUser.id =
    (done.filter (allowed now db)).map utf16

theorem granted_nil (now : Int) (db : Database) : Granted now db [] ⟨db, [], []⟩ :=
  ⟨.refl db, rfl, fun _ => rfl, rfl, rfl⟩

theorem userQuota_eq_ok {userId : String} {quota : Quota} (h : userQuota userId now db = .ok quota) :
    quota.blocked = !allowed now db userId := by
  simp only [userQuota, bind_eq_ok, found_eq_ok, failIf_eq_ok, exists_const, pure_eq_ok] at h
  obtain ⟨user, huser, -, rfl⟩ := h
  rw [allowed, huser, Option.any_some]
  cases user.monthlyLimitBytes with
  | none => rfl
  | some limit => simp only [Option.any_some, Option.all_some, ← decide_not, not_lt]

theorem SameBut.users {db db' : Database} (h : SameBut db db') : db'.users = db.users := by
  obtain ⟨_, _, _, rfl⟩ := h
  rfl

theorem allowed_of_sameBut {db' : Database} (h : SameBut db db') (userId : String) :
    allowed now db' userId = allowed now db userId := by
  unfold allowed usedBytes
  rw [h.users, h.usageBuckets]

/-- One round of the loop. -/
theorem Granted.step {done : List String} {state state' : Refreshing} {userId : String}
    (h : Granted now db done state)
    (hstep : refreshUser vault fresh now state userId = .ok state') :
    Granted now db (done ++ [userId]) state' := by
  have hsame := h.same.trans (sameBut_refreshUser hstep)
  have hinitialized : SameBut db (initializeUserSecrets fresh userId state.db) :=
    h.same.trans (sameBut_initialized fresh userId state.db)
  have hgeneration : ∀ userId', generationOf userId' (initializeUserSecrets fresh userId state.db) =
      generationOf userId' db := fun userId' =>
    (generationOf_initialized userId userId').trans (h.generation userId')
  simp only [refreshUser, bind_eq_ok] at hstep
  obtain ⟨credentials, hcredentials, quota, hquota, hstep⟩ := hstep
  have hblocked := userQuota_eq_ok hquota
  rw [allowed_of_sameBut hinitialized] at hblocked
  have hread : credentials.generation = generationOf userId db := by
    simp only [readProxyCredentials, bind_eq_ok, found_eq_ok, pure_eq_ok] at hcredentials
    obtain ⟨row, hrow, secrets, -, rfl⟩ := hcredentials
    rw [← hgeneration, generationOf, hrow]
    rfl
  have hpolicy : (initializeUserSecrets fresh userId state.db).policyState = db.policyState :=
    (policyState_initialized userId).trans h.policy
  cases hallowed : allowed now db userId with
  | false =>
    rw [hblocked, hallowed] at hstep
    simp only [Bool.not_false, if_true, pure_eq_ok] at hstep
    subst hstep
    refine ⟨hsame, hpolicy, hgeneration, ?_, ?_⟩
    · simp [h.fingerprint, hallowed]
    · simp [h.authorized, hallowed]
  | true =>
    rw [hblocked, hallowed] at hstep
    simp only [Bool.not_true, Bool.false_eq_true, if_false, pure_eq_ok] at hstep
    subst hstep
    refine ⟨hsame, hpolicy, hgeneration, ?_, ?_⟩
    · simp [h.fingerprint, hallowed, hread]
    · simp [h.authorized, hallowed]

/-- **A refresh that succeeds** stores the policy of what is granted, and gives that out. -/
theorem refresh_eq_ok {db' : Database} {authorization : AuthorizationLayer}
    (h : refresh vault fresh now db = .ok (authorization, db')) :
    ∃ policy, policy = nextPolicy db.policyState (fingerprintOf (grants now db)) (monthPeriod now)
        now ∧ policy.revision ≤ maxSafeInteger ∧
      authorization.policyRevision = integerText policy.revision ∧
      authorization.users.map AuthorizedUser.id = (grants now db).map (fun grant => utf16 grant.1) ∧
      db'.policyState = some policy ∧
      ∀ userId, generationOf userId db' = generationOf userId db := by
  simp only [refresh, bind_eq_ok, failIf_eq_ok, pure_eq_ok, exists_const, Prod.mk.injEq] at h
  obtain ⟨state, hloop, hrevision, rfl, rfl⟩ := h
  have hgranted := foldlM_induction_prefix (I := Granted now db)
    (fun done s userId s' hs hstep => hs.step hstep) [] hloop (granted_nil now db)
  rw [List.nil_append] at hgranted
  have hfingerprint : state.fingerprintUsers = grants now db := hgranted.fingerprint
  rw [hgranted.policy, hfingerprint] at hrevision ⊢
  refine ⟨_, rfl, not_lt.1 hrevision, rfl, ?_, rfl, hgranted.generation⟩
  rw [grants, List.map_map]
  exact hgranted.authorized

/-- A round of the loop, where the secrets can be read and the usage can be counted. -/
theorem exists_refreshUser {state : Refreshing} {userId : String}
    (hreads : vault.Reads state.db) (hfresh : vault.ReadsFresh fresh)
    (huser : (state.db.users.get? userId).isSome) (husage : usedBytes userId now state.db ≤ maxInt64) :
    ∃ state', refreshUser vault fresh now state userId = .ok state' ∧ vault.Reads state'.db := by
  obtain ⟨secrets, hcredentials⟩ := readProxyCredentials_initialized hreads hfresh userId
  have hsame := sameBut_initialized fresh userId state.db
  obtain ⟨user, huser⟩ := Option.isSome_iff_exists.1 huser
  have hquota : ∃ quota, userQuota userId now (initializeUserSecrets fresh userId state.db) =
      .ok quota := by
    have hused : usedBytes userId now (initializeUserSecrets fresh userId state.db) =
        usedBytes userId now state.db := by
      rw [usedBytes, hsame.usageBuckets]
      rfl
    simp only [userQuota, hsame.users, huser, found, ok_bind, hused, failIf_of_not (not_lt.2 husage)]
    exact ⟨_, rfl⟩
  obtain ⟨quota, hquota⟩ := hquota
  have hafter := reads_initialized hreads hfresh userId
  rw [refreshUser]
  simp only [hcredentials, hquota, ok_bind]
  split_ifs
  · exact ⟨_, rfl, hafter⟩
  · exact ⟨_, rfl, hafter⟩

theorem mem_activeUsers {userId : String} :
    userId ∈ activeUsers db ↔ ∃ user, db.users.get? userId = some user ∧ user.status = .active := by
  simp only [activeUsers, List.mem_insertionSort, List.mem_map, List.mem_filter, decide_eq_true_eq,
    Prod.exists, Table.mem_rows_iff]
  constructor
  · rintro ⟨_, user, huser, rfl⟩
    exact ⟨user, huser⟩
  · rintro ⟨user, huser⟩
    exact ⟨userId, user, huser, rfl⟩

/-- **A refresh succeeds** where the secrets can be read, the usage can be counted and the revision
is in range. -/
theorem exists_refresh (hreads : vault.Reads db) (hfresh : vault.ReadsFresh fresh)
    (husage : ∀ userId, usedBytes userId now db ≤ maxInt64)
    (hrevision : (nextPolicy db.policyState (fingerprintOf (grants now db)) (monthPeriod now)
      now).revision ≤ maxSafeInteger) :
    ∃ authorization db', refresh vault fresh now db = .ok (authorization, db') ∧
      vault.Reads db' := by
  have hloop : ∀ (ids : List String) (state : Refreshing), SameBut db state.db →
      vault.Reads state.db → (∀ userId ∈ ids, (db.users.get? userId).isSome) →
      ∃ state', ids.foldlM (refreshUser vault fresh now) state = .ok state' ∧
        vault.Reads state'.db := by
    intro ids
    induction ids with
    | nil => exact fun state _ hreads _ => ⟨state, rfl, hreads⟩
    | cons userId ids ih =>
      intro state hsame hreads hids
      have hused : usedBytes userId now state.db ≤ maxInt64 := by
        rw [usedBytes, hsame.usageBuckets]
        exact husage userId
      obtain ⟨state₁, hstep, hreads₁⟩ := exists_refreshUser hreads hfresh
        (by rw [hsame.users]; exact hids userId List.mem_cons_self) hused
      obtain ⟨state₂, hrest, hreads₂⟩ := ih state₁ (hsame.trans (sameBut_refreshUser hstep))
        hreads₁ fun userId' hmem => hids userId' (List.mem_cons_of_mem _ hmem)
      exact ⟨state₂, by rw [List.foldlM_cons, hstep, ok_bind, hrest], hreads₂⟩
  obtain ⟨state, hstate, hreads'⟩ := hloop (activeUsers db) ⟨db, [], []⟩ (.refl db) hreads
    fun userId hmem => by
      obtain ⟨user, huser, -⟩ := mem_activeUsers.1 hmem
      rw [huser]
      rfl
  have hgranted := foldlM_induction_prefix (I := Granted now db)
    (fun done s userId s' hs hstep => hs.step hstep) [] hstate (granted_nil now db)
  rw [List.nil_append] at hgranted
  have hfingerprint : state.fingerprintUsers = grants now db := hgranted.fingerprint
  have hresult : refresh vault fresh now db = .ok
      ({ policyRevision := integerText (nextPolicy db.policyState (fingerprintOf (grants now db))
          (monthPeriod now) now).revision
         users := state.authorized },
        { state.db with policyState := some (nextPolicy db.policyState
            (fingerprintOf (grants now db)) (monthPeriod now) now) }) := by
    simp only [refresh, hstate, ok_bind, hgranted.policy, hfingerprint,
      failIf_of_not (not_lt.2 hrevision)]
    rfl
  exact ⟨_, _, hresult, hreads'⟩

/-- Who is granted what depends on which users are active and below their limits only. -/
theorem grants_congr {now' : Int} {db' : Database}
    (hmem : ∀ userId, userId ∈ activeUsers db' ∧ allowed now' db' userId = true ↔
      userId ∈ activeUsers db ∧ allowed now db userId = true)
    (hgeneration : ∀ userId, generationOf userId db' = generationOf userId db) :
    grants now' db' = grants now db := by
  have hnodup : ∀ db : Database, (activeUsers db).Nodup := fun db =>
    (List.perm_insertionSort _ _).nodup_iff.2
      (db.users.nodup.sublist (List.filter_sublist.map _))
  have hsorted : ∀ db : Database, (activeUsers db).Pairwise (· ≤ ·) := fun db =>
    List.pairwise_insertionSort _ _
  have hperm : ((activeUsers db').filter (allowed now' db')).Perm
      ((activeUsers db).filter (allowed now db)) := by
    rw [List.perm_ext_iff_of_nodup ((hnodup db').filter _) ((hnodup db).filter _)]
    simp only [List.mem_filter]
    exact hmem
  rw [grants, grants, hperm.eq_of_pairwise' ((hsorted db').filter _) ((hsorted db).filter _)]
  exact List.map_congr_left fun userId _ => by rw [hgeneration]

end Grants

end Bifurcation.Panel
