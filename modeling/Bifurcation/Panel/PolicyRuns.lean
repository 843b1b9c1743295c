import Bifurcation.Lib.JsStrings
import Bifurcation.Lib.Versioned
import Bifurcation.Panel.Policy

/-!
# Policy revisions over runs

A policy revision names an authorization: whatever happens to the accounts, the limits and the
usage between two refreshes, equal revisions mean the same users with the same secrets.

**Two versions.** The policy row has a revision, which names the fingerprint stored with it, and
a proxy identity has a generation, which names its ciphertext. Both are `Versioned` along a run:
a refresh raises the revision exactly when it stores another fingerprint, and only a reset, which
raises the generation, replaces a ciphertext. A fingerprint text says which users are granted and
at which generations (`fingerprintText_injective`), so equal revisions give equal ciphertexts.

**Hashes.** Fingerprints are SHA-256 digests; that no two of a run's fingerprint texts share one
is a hypothesis on these texts.

Main result: `policy_revision_faithful`.
-/

namespace Bifurcation.Panel

open Javascript

/-! ## The fingerprint text -/

theorem integerText_injective : Function.Injective integerText := fun _ _ h =>
  Int.repr_injective (utf16_injective h)

theorem notMem_integerText (n : Int) : (0x5d : UInt16) ∉ integerText n := by
  intro h
  have hmem : ']' ∈ (Int.repr n).toList := mem_of_mem_utf16 (by decide) h
  have hdigits : ∀ m : ℕ, ']' ∉ m.repr.toList := fun m h =>
    absurd (isDigit_of_mem_toString h) (by decide)
  cases n with
  | ofNat m => exact hdigits m hmem
  | negSucc m =>
    rw [Int.repr, String.toList_append, List.mem_append] at hmem
    rcases hmem with hmem | hmem
    · exact absurd hmem (by decide)
    · exact hdigits _ hmem

/-- One pair of the fingerprint. -/
def fingerprintEntry (user : String × Int) : JsString :=
  utf16 "[" ++ quote (utf16 user.1) ++ utf16 "," ++ integerText user.2 ++ utf16 "]"

theorem fingerprintEntry_append_inj {user user' : String × Int} {xs ys : JsString}
    (h : fingerprintEntry user ++ xs = fingerprintEntry user' ++ ys) : user = user' ∧ xs = ys := by
  simp only [fingerprintEntry, List.append_assoc, List.append_cancel_left_eq] at h
  obtain ⟨hid, h⟩ := quote_append_inj h
  rw [List.append_cancel_left_eq] at h
  rw [show utf16 "]" = [0x5d] by decide, List.singleton_append, List.singleton_append] at h
  obtain ⟨hgeneration, hrest⟩ := append_cons_inj (notMem_integerText _) (notMem_integerText _) h
  exact ⟨Prod.ext (utf16_injective hid) (integerText_injective hgeneration), hrest⟩

/-- The pairs after the first, with the bracket that closes the list. -/
def fingerprintTail : List (String × Int) → JsString
  | [] => utf16 "]"
  | user :: users => utf16 "," ++ fingerprintEntry user ++ fingerprintTail users

theorem join_append_tail (user : String × Int) (users : List (String × Int)) :
    join ((user :: users).map fingerprintEntry) ++ utf16 "]" =
      fingerprintEntry user ++ fingerprintTail users := by
  induction users generalizing user with
  | nil => rfl
  | cons next users ih =>
    rw [List.map_cons, List.map_cons, join, ← List.map_cons, List.append_assoc, ih,
      fingerprintTail]
    simp only [List.append_assoc]
    exact List.cons_ne_nil _ _

theorem fingerprintTail_inj : ∀ {users users' : List (String × Int)},
    fingerprintTail users = fingerprintTail users' → users = users'
  | [], [], _ => rfl
  | [], _ :: _, h => absurd (List.cons.inj h).1 (by decide)
  | _ :: _, [], h => absurd (List.cons.inj h).1 (by decide)
  | user :: users, user' :: users', h => by
    simp only [fingerprintTail, List.append_assoc, List.append_cancel_left_eq] at h
    obtain ⟨rfl, hrest⟩ := fingerprintEntry_append_inj h
    rw [fingerprintTail_inj hrest]

/-- **The fingerprint text says who is granted what.** -/
theorem fingerprintText_injective : Function.Injective fingerprintText := by
  have htext : ∀ user users, fingerprintText (user :: users) =
      utf16 "[" ++ (fingerprintEntry user ++ fingerprintTail users) := by
    intro user users
    rw [← join_append_tail]
    exact List.append_assoc _ _ _
  intro users users' h
  cases users with
  | nil =>
    cases users' with
    | nil => rfl
    | cons user' users' =>
      rw [htext] at h
      exact absurd (List.cons.inj (List.cons.inj h).2).1 (by decide)
  | cons user users =>
    cases users' with
    | nil =>
      rw [htext] at h
      exact absurd (List.cons.inj (List.cons.inj h).2).1 (by decide)
    | cons user' users' =>
      rw [htext, htext, List.append_cancel_left_eq] at h
      obtain ⟨rfl, hrest⟩ := fingerprintEntry_append_inj h
      rw [fingerprintTail_inj hrest]

/-- The bytes a fingerprint is the digest of. -/
def fingerprintBytes (users : List (String × Int)) : Bytes := bufferFrom (fingerprintText users)

theorem wellFormed_fingerprintText (users : List (String × Int)) :
    WellFormed (fingerprintText users) := by
  have hentry : ∀ user : String × Int, WellFormed (fingerprintEntry user) := fun user =>
    ((((wellFormed_utf16 _).append (wellFormed_quote _)).append (wellFormed_utf16 _)).append
      (wellFormed_utf16 _)).append (wellFormed_utf16 _)
  refine ((wellFormed_utf16 _).append (wellFormed_join fun s hs => ?_)).append (wellFormed_utf16 _)
  obtain ⟨user, -, rfl⟩ := List.mem_map.1 hs
  exact hentry user

theorem fingerprintBytes_injective : Function.Injective fingerprintBytes := fun _ _ h =>
  fingerprintText_injective
    (bufferFrom_injOn (wellFormed_fingerprintText _) (wellFormed_fingerprintText _) h)

/-! ## The secrets a refresh gives -/

section Secrets

variable {vault : Vault} {fresh : String → String} {now : Int}

/-- The proxy identities that exist stay as they are. -/
def Kept (db db' : Database) : Prop :=
  ∀ userId row, db.proxyCredentials.get? userId = some row →
    db'.proxyCredentials.get? userId = some row

theorem Kept.refl (db : Database) : Kept db db := fun _ _ h => h

theorem Kept.trans {db db' db'' : Database} (h : Kept db db') (h' : Kept db' db'') :
    Kept db db'' := fun userId row hrow => h' userId row (h userId row hrow)

theorem kept_initialized (fresh : String → String) (userId : String) (db : Database) :
    Kept db (initializeUserSecrets fresh userId db) := by
  intro userId' row hrow
  unfold initializeUserSecrets
  cases hold : db.proxyCredentials.get? userId with
  | some _ => exact hrow
  | none =>
    have hne : userId' ≠ userId := by
      rintro rfl
      rw [hold] at hrow
      cases hrow
    dsimp only
    rw [Table.get?_set_of_ne _ _ hne, hrow]

theorem kept_refreshUser {state state' : Refreshing} {userId : String}
    (h : refreshUser vault fresh now state userId = .ok state') : Kept state.db state'.db := by
  simp only [refreshUser, bind_eq_ok] at h
  obtain ⟨credentials, -, quota, -, h⟩ := h
  have hkept := kept_initialized fresh userId state.db
  split at h
  · obtain rfl := (pure_eq_ok.1 h)
    exact hkept
  · obtain rfl := (pure_eq_ok.1 h)
    exact hkept

/-- What a user is given: the stored secrets. -/
def entryIn (vault : Vault) (db : Database) (userId : String) : Option AuthorizedUser :=
  ((db.proxyCredentials.get? userId).bind fun row => vault.secretsOf row.secretsCiphertext).map
    fun secrets => ⟨utf16 userId, secrets⟩

theorem entryIn_of_kept {db db' : Database} (h : Kept db db') {userId : String}
    {user : AuthorizedUser} (huser : entryIn vault db userId = some user) :
    entryIn vault db' userId = some user := by
  cases hrow : db.proxyCredentials.get? userId with
  | none => simp [entryIn, hrow] at huser
  | some row => rwa [entryIn, h userId row hrow, ← hrow, ← entryIn]

/-- The users of the loop, with what the state stores for them. -/
structure Gives (vault : Vault) (now : Int) (db : Database) (done : List String)
    (state : Refreshing) : Prop where
  users : state.authorized.map some =
    (done.filter (allowed now db)).map (entryIn vault state.db)
  stored : ∀ userId ∈ done, (state.db.proxyCredentials.get? userId).isSome

/-- What was given stays what is stored. -/
theorem Gives.map_entryIn {db db' : Database} {done : List String} {state : Refreshing}
    (h : Gives vault now db done state) (hkept : Kept state.db db') :
    (done.filter (allowed now db)).map (entryIn vault db') = state.authorized.map some := by
  rw [h.users]
  refine List.map_congr_left fun userId hmem => ?_
  have hsome : entryIn vault state.db userId ∈ state.authorized.map some := by
    rw [h.users]
    exact List.mem_map_of_mem hmem
  obtain ⟨user, -, huser⟩ := List.mem_map.1 hsome
  rw [← huser, entryIn_of_kept hkept huser.symm]

theorem Gives.step {db : Database} {done : List String} {state state' : Refreshing}
    {userId : String} (hsame : SameBut db state.db) (h : Gives vault now db done state)
    (hstep : refreshUser vault fresh now state userId = .ok state') :
    Gives vault now db (done ++ [userId]) state' := by
  have hkept := kept_refreshUser hstep
  have hbefore := h.map_entryIn hkept
  have hinitialized := hsame.trans (sameBut_initialized fresh userId state.db)
  simp only [refreshUser, bind_eq_ok] at hstep
  obtain ⟨credentials, hcredentials, quota, hquota, hstep⟩ := hstep
  have hblocked := userQuota_eq_ok hquota
  rw [allowed_of_sameBut hinitialized] at hblocked
  simp only [readProxyCredentials, bind_eq_ok, found_eq_ok, pure_eq_ok] at hcredentials
  obtain ⟨row, hrow, secrets, hsecrets, rfl⟩ := hcredentials
  have hstored : ∀ db' : Database, Kept (initializeUserSecrets fresh userId state.db) db' →
      Kept state.db db' → ∀ id ∈ done ++ [userId], (db'.proxyCredentials.get? id).isSome := by
    intro db' hk hk' id hid
    rcases List.mem_append.1 hid with hid | hid
    · obtain ⟨old, hold⟩ := Option.isSome_iff_exists.1 (h.stored id hid)
      rw [hk' id old hold]
      rfl
    · rw [List.mem_singleton.1 hid, hk userId row hrow]
      rfl
  cases hallowed : allowed now db userId with
  | false =>
    rw [hblocked, hallowed] at hstep
    simp only [Bool.not_false, if_true, pure_eq_ok] at hstep
    subst hstep
    refine ⟨?_, hstored _ (fun _ _ h => h) hkept⟩
    simpa [hallowed] using hbefore.symm
  | true =>
    rw [hblocked, hallowed] at hstep
    simp only [Bool.not_true, Bool.false_eq_true, if_false, pure_eq_ok] at hstep
    subst hstep
    refine ⟨?_, hstored _ (fun _ _ h => h) hkept⟩
    have hentry : entryIn vault (initializeUserSecrets fresh userId state.db) userId =
        some ⟨utf16 userId, secrets⟩ := by
      rw [entryIn, hrow, Option.bind_some, hsecrets, Option.map_some]
    rw [List.filter_append, List.map_append, List.map_append, hbefore]
    simp only [List.filter_cons_of_pos hallowed, List.filter_nil, List.map_singleton]
    exact congrArg _ (congrArg (fun u => [u]) hentry.symm)

theorem gives_nil (vault : Vault) (now : Int) (db : Database) :
    Gives vault now db [] ⟨db, [], []⟩ :=
  ⟨rfl, fun _ h => absurd h List.not_mem_nil⟩

/-- **A refresh gives the secrets it leaves stored**, to those it grants, at their generations. -/
theorem refresh_gives {db db' : Database} {authorization : AuthorizationLayer}
    (h : refresh vault fresh now db = .ok (authorization, db')) :
    authorization.users.map some =
        (grants now db).map (fun grant => entryIn vault db' grant.1) ∧
      (∀ grant ∈ grants now db, ∃ row, db'.proxyCredentials.get? grant.1 = some row ∧
        row.generation = grant.2) ∧
      Kept db db' := by
  have hgenerations := refresh_eq_ok h
  obtain ⟨-, -, -, -, -, -, hgeneration⟩ := hgenerations
  simp only [refresh, bind_eq_ok, failIf_eq_ok, pure_eq_ok, exists_const, Prod.mk.injEq] at h
  obtain ⟨state, hloop, -, rfl, rfl⟩ := h
  have hkept : Kept db state.db :=
    foldlM_induction (I := fun s : Refreshing => Kept db s.db)
      (fun s userId s' hs hstep => hs.trans (kept_refreshUser hstep)) hloop (.refl db)
  obtain ⟨-, hgives⟩ := foldlM_induction_prefix
    (I := fun done s => SameBut db s.db ∧ Gives vault now db done s)
    (fun done s userId s' hs hstep =>
      ⟨hs.1.trans (sameBut_refreshUser hstep), hs.2.step hs.1 hstep⟩)
    [] hloop ⟨.refl db, gives_nil vault now db⟩
  rw [List.nil_append] at hgives
  refine ⟨?_, ?_, hkept⟩
  · rw [grants, List.map_map]
    exact hgives.users
  · intro grant hgrant
    obtain ⟨userId, hmem, rfl⟩ := List.mem_map.1 hgrant
    obtain ⟨row, hrow⟩ := Option.isSome_iff_exists.1
      (hgives.stored userId (List.mem_of_mem_filter hmem))
    have hstored := hgeneration userId
    simp only [generationOf, hrow, Option.map_some, Option.getD_some] at hstored
    exact ⟨row, hrow, hstored⟩

end Secrets

/-! ## Two versions -/

/-- The revision of the policy row, below all others before there is one. -/
def storedRevision (db : Database) : WithBot Int := db.policyState.map PolicyRow.revision

def storedFingerprint (db : Database) : Option String := db.policyState.map PolicyRow.fingerprint

def storedGeneration (userId : String) (db : Database) : WithBot Int :=
  (db.proxyCredentials.get? userId).map CredentialRow.generation

def storedSecrets (userId : String) (db : Database) : Option String :=
  (db.proxyCredentials.get? userId).map CredentialRow.secretsCiphertext

/-- A later state: revisions name fingerprints, and generations name ciphertexts. -/
structure LaterPolicy (db db' : Database) : Prop where
  policy : Versioned storedRevision storedFingerprint db db'
  credentials : ∀ userId, Versioned (storedGeneration userId) (storedSecrets userId) db db'

theorem LaterPolicy.refl (db : Database) : LaterPolicy db db := ⟨.refl db, fun _ => .refl db⟩

theorem LaterPolicy.trans {db db' db'' : Database} (h : LaterPolicy db db')
    (h' : LaterPolicy db' db'') : LaterPolicy db db'' :=
  ⟨h.policy.trans h'.policy, fun userId => (h.credentials userId).trans (h'.credentials userId)⟩

/-- Identities that are kept keep their generations, and new ones had none before. -/
theorem versioned_of_kept {db db' : Database} (h : Kept db db') (userId : String) :
    Versioned (storedGeneration userId) (storedSecrets userId) db db' := by
  cases hrow : db.proxyCredentials.get? userId with
  | some row =>
    apply Versioned.of_eq
    · rw [storedGeneration, storedGeneration, h userId row hrow, hrow]
    · rw [storedSecrets, storedSecrets, h userId row hrow, hrow]
  | none =>
    have hnone : storedGeneration userId db = ⊥ := by
      rw [storedGeneration, hrow]
      rfl
    refine ⟨by rw [hnone]; exact bot_le, fun heq => ?_⟩
    cases hrow' : db'.proxyCredentials.get? userId with
    | none => rw [storedSecrets, storedSecrets, hrow, hrow']
    | some row' =>
      rw [hnone, storedGeneration, hrow'] at heq
      exact absurd heq.symm (WithBot.coe_ne_bot)

/-- A reset raises the generation of its user and leaves the others. -/
theorem versioned_reset {vault : Vault} {fresh : String → String} {userId : String}
    {db db' : Database} (h : resetProxyCredentials vault fresh userId db = .ok db')
    (userId' : String) :
    Versioned (storedGeneration userId') (storedSecrets userId') db db' := by
  simp only [resetProxyCredentials, readProxyCredentials, bind_eq_ok, found_eq_ok, pure_eq_ok] at h
  obtain ⟨-, ⟨row, hrow, secrets, -, rfl⟩, rfl⟩ := h
  by_cases heq : userId' = userId
  · subst heq
    apply Versioned.of_lt
    rw [storedGeneration, storedGeneration, hrow, Table.get?_set, if_pos rfl]
    exact WithBot.coe_lt_coe.2 (Int.lt_succ row.generation)
  · apply Versioned.of_eq
    · rw [storedGeneration, storedGeneration, Table.get?_set_of_ne _ _ heq]
    · rw [storedSecrets, storedSecrets, Table.get?_set_of_ne _ _ heq]

theorem policyState_reset {vault : Vault} {fresh : String → String} {userId : String}
    {db db' : Database} (h : resetProxyCredentials vault fresh userId db = .ok db') :
    db'.policyState = db.policyState := by
  simp only [resetProxyCredentials, bind_eq_ok, pure_eq_ok] at h
  obtain ⟨-, -, rfl⟩ := h
  rfl

/-- The row that is written has the fingerprint, and counts whether it is another one. -/
theorem nextPolicy_some (row : PolicyRow) (fingerprint period : String) (now : Int) :
    (nextPolicy (some row) fingerprint period now).fingerprint = fingerprint ∧
      (nextPolicy (some row) fingerprint period now).revision =
        row.revision + if row.fingerprint = fingerprint then 0 else 1 := by
  by_cases hsame : row.fingerprint = fingerprint
  · by_cases hperiod : row.period = period
    · simp [nextPolicy, hsame, hperiod]
    · simp [nextPolicy, hsame, hperiod]
  · simp [nextPolicy, hsame]

theorem storedRevision_of {db : Database} {row : PolicyRow} (h : db.policyState = some row) :
    storedRevision db = (row.revision : WithBot Int) := by
  rw [storedRevision, h]
  rfl

theorem storedFingerprint_of {db : Database} {row : PolicyRow} (h : db.policyState = some row) :
    storedFingerprint db = some row.fingerprint := by
  rw [storedFingerprint, h]
  rfl

/-- A refresh raises the revision exactly when it stores another fingerprint. -/
theorem versioned_nextPolicy {db db' : Database} {fingerprint period : String} {now : Int}
    (h : db'.policyState = some (nextPolicy db.policyState fingerprint period now)) :
    Versioned storedRevision storedFingerprint db db' := by
  cases hrow : db.policyState with
  | none =>
    apply Versioned.of_lt
    rw [storedRevision_of h, storedRevision, hrow]
    exact WithBot.bot_lt_coe _
  | some row =>
    rw [hrow] at h
    obtain ⟨hfingerprint, hrevision⟩ := nextPolicy_some row fingerprint period now
    by_cases hsame : row.fingerprint = fingerprint
    · rw [if_pos hsame, add_zero] at hrevision
      apply Versioned.of_eq
      · rw [storedRevision_of h, storedRevision_of hrow, hrevision]
      · rw [storedFingerprint_of h, storedFingerprint_of hrow, hfingerprint, hsame]
    · rw [if_neg hsame] at hrevision
      apply Versioned.of_lt
      rw [storedRevision_of h, storedRevision_of hrow, hrevision]
      exact WithBot.coe_lt_coe.2 (Int.lt_succ row.revision)

/-! ## Who is granted -/

/-! ## Runs -/

/-- What a refresh did: whom it granted what, the revision it stored and what it gave out. -/
structure Refreshed where
  grants : List (String × Int)
  revision : Int
  authorization : AuthorizationLayer

/-- The record of a refresh that left a state. -/
def refreshedBy (now : Int) (db : Database) (authorization : AuthorizationLayer)
    (db' : Database) : Refreshed where
  grants := grants now db
  revision := (db'.policyState.map PolicyRow.revision).getD 0
  authorization := authorization

/-- The committed changes of a panel, with what its refreshes did, the latest last. Everything but
the proxy identities and the policy row may change in any way. -/
inductive PolicyRun (vault : Vault) : Database → List Refreshed → Database → Prop where
  | start (db : Database) : PolicyRun vault db [] db
  | changed {db db' db'' : Database} {log : List Refreshed} (h : PolicyRun vault db log db')
      (hcredentials : db''.proxyCredentials = db'.proxyCredentials)
      (hpolicy : db''.policyState = db'.policyState) : PolicyRun vault db log db''
  | initialized {db db' : Database} {log : List Refreshed} (h : PolicyRun vault db log db')
      (fresh : String → String) (userId : String) :
      PolicyRun vault db log (initializeUserSecrets fresh userId db')
  | reset {db db' db'' : Database} {log : List Refreshed} {fresh : String → String}
      {userId : String} (h : PolicyRun vault db log db')
      (hreset : resetProxyCredentials vault fresh userId db' = .ok db'') :
      PolicyRun vault db log db''
  | refreshed {db db' db'' : Database} {log : List Refreshed} {fresh : String → String}
      {now : Int} {authorization : AuthorizationLayer} (h : PolicyRun vault db log db')
      (hrefresh : refresh vault fresh now db' = .ok (authorization, db'')) :
      PolicyRun vault db (log ++ [refreshedBy now db' authorization db'']) db''

section Runs

variable {vault : Vault}

/-- The state a refresh left, as its record has it. -/
structure Refreshed.Left (vault : Vault) (record : Refreshed) (db : Database) : Prop where
  policy : ∃ row, db.policyState = some row ∧ row.revision = record.revision ∧
    row.fingerprint = fingerprintOf record.grants
  generations : ∀ grant ∈ record.grants, ∃ row,
    db.proxyCredentials.get? grant.1 = some row ∧ row.generation = grant.2
  users : record.authorization.users.map some =
    record.grants.map fun grant => entryIn vault db grant.1
  text : record.authorization.policyRevision = integerText record.revision

theorem left_refreshedBy {fresh : String → String} {now : Int} {db db' : Database}
    {authorization : AuthorizationLayer}
    (h : refresh vault fresh now db = .ok (authorization, db')) :
    (refreshedBy now db authorization db').Left vault db' := by
  obtain ⟨policy, hpolicy, -, htext, -, hstored, -⟩ := refresh_eq_ok h
  obtain ⟨husers, hgenerations, -⟩ := refresh_gives h
  have hrevision : (refreshedBy now db authorization db').revision = policy.revision := by
    simp only [refreshedBy, hstored, Option.map_some, Option.getD_some]
  have hfingerprint : policy.fingerprint = fingerprintOf (grants now db) := by
    rw [hpolicy]
    cases db.policyState with
    | none => rfl
    | some row => exact (nextPolicy_some row _ _ _).1
  exact ⟨⟨policy, hstored, hrevision.symm, hfingerprint⟩, hgenerations, husers,
    htext.trans (by rw [hrevision])⟩

/-- Revisions count from one. -/
theorem one_le_revision {log : List Refreshed} {db : Database}
    (h : PolicyRun vault Database.empty log db) :
    (∀ row, db.policyState = some row → 1 ≤ row.revision) ∧ ∀ r ∈ log, 1 ≤ r.revision := by
  induction h with
  | start => exact ⟨fun _ hrow => (Option.some_ne_none _ hrow.symm).elim, fun _ hr =>
      absurd hr List.not_mem_nil⟩
  | changed _ _ hpolicy ih =>
    rw [hpolicy]
    exact ih
  | initialized _ fresh userId ih =>
    rw [policyState_initialized]
    exact ih
  | reset _ hreset ih =>
    rw [policyState_reset hreset]
    exact ih
  | @refreshed db' _ log fresh now authorization _ hrefresh ih =>
    obtain ⟨policy, hpolicy, -, htext, -, hstored, -⟩ := refresh_eq_ok hrefresh
    have hone : 1 ≤ policy.revision := by
      cases hrow : db'.policyState with
      | none =>
        rw [hpolicy, hrow]
        exact le_rfl
      | some row =>
        have hold := ih.1 row hrow
        have hnext := (nextPolicy_some row (fingerprintOf (grants now db')) (monthPeriod now) now).2
        rw [hpolicy, hrow, hnext]
        split_ifs <;> omega
    refine ⟨fun row hrow => ?_, fun r hr => ?_⟩
    · rw [hstored] at hrow
      rwa [← Option.some.inj hrow]
    · rcases List.mem_append.1 hr with hr | hr
      · exact ih.2 r hr
      · have hrevision := integerText_injective (htext.symm.trans (left_refreshedBy hrefresh).text)
        rw [List.mem_singleton.1 hr, ← hrevision]
        exact hone

/-- No two fingerprints of a run are the digest of different texts. -/
def CollisionFree (log : List Refreshed) : Prop :=
  ∀ a ∈ log, ∀ b ∈ log, sha256 (fingerprintBytes a.grants) = sha256 (fingerprintBytes b.grants) →
    fingerprintBytes a.grants = fingerprintBytes b.grants

/-- An equal revision is an equal authorization. -/
structure Refreshed.Names (a b : Refreshed) : Prop where
  le : a.revision ≤ b.revision
  same : a.revision = b.revision → a.grants = b.grants ∧ a.authorization = b.authorization

/-- **Two refreshes of one history**, where their fingerprints do not collide. -/
theorem Refreshed.Left.names {a b : Refreshed} {db db' : Database} (ha : a.Left vault db)
    (hb : b.Left vault db') (hlater : LaterPolicy db db')
    (hhash : fingerprintOf a.grants = fingerprintOf b.grants → a.grants = b.grants) :
    a.Names b := by
  obtain ⟨row, hrow, hrevision, hfingerprint⟩ := ha.policy
  obtain ⟨row', hrow', hrevision', hfingerprint'⟩ := hb.policy
  have hversion : (a.revision : WithBot Int) = storedRevision db := by
    rw [storedRevision_of hrow, hrevision]
  have hversion' : (b.revision : WithBot Int) = storedRevision db' := by
    rw [storedRevision_of hrow', hrevision']
  refine ⟨WithBot.coe_le_coe.1 (hversion ▸ hversion' ▸ hlater.policy.le), fun hsame => ?_⟩
  -- Equal revisions store one fingerprint, so the grants are the same.
  have hstored := hlater.policy.same (by rw [← hversion, ← hversion', hsame])
  rw [storedFingerprint_of hrow, storedFingerprint_of hrow', hfingerprint, hfingerprint'] at hstored
  have hgrants := hhash (Option.some.inj hstored)
  refine ⟨hgrants, ?_⟩
  -- Equal generations store one ciphertext, so the secrets are the same.
  have hentries : a.grants.map (fun grant => entryIn vault db grant.1) =
      b.grants.map fun grant => entryIn vault db' grant.1 := by
    rw [← hgrants]
    refine List.map_congr_left fun grant hgrant => ?_
    obtain ⟨old, hold, hgeneration⟩ := ha.generations grant hgrant
    obtain ⟨new, hnew, hgeneration'⟩ := hb.generations grant (hgrants ▸ hgrant)
    have hsecrets := (hlater.credentials grant.1).same (by
      rw [storedGeneration, storedGeneration, hold, hnew, Option.map_some, Option.map_some,
        hgeneration, hgeneration'])
    rw [storedSecrets, storedSecrets, hold, hnew] at hsecrets
    rw [entryIn, entryIn, hold, hnew, Option.bind_some, Option.bind_some,
      Option.some.inj hsecrets]
  have husers : a.authorization.users = b.authorization.users := by
    apply List.map_injective_iff.2 (Option.some_injective _)
    rw [ha.users, hb.users, hentries]
  have htext : a.authorization.policyRevision = b.authorization.policyRevision := by
    rw [ha.text, hb.text, hsame]
  cases hA : a.authorization
  cases hB : b.authorization
  simp_all

theorem laterPolicy_refresh {fresh : String → String} {now : Int} {db db' : Database}
    {authorization : AuthorizationLayer}
    (h : refresh vault fresh now db = .ok (authorization, db')) : LaterPolicy db db' := by
  obtain ⟨policy, hpolicy, -, -, -, hstored, -⟩ := refresh_eq_ok h
  rw [hpolicy] at hstored
  exact ⟨versioned_nextPolicy hstored, versioned_of_kept (refresh_gives h).2.2⟩

/-- A change that leaves the two versions alone. -/
theorem laterPolicy_of_eq {db db' : Database}
    (hcredentials : db'.proxyCredentials = db.proxyCredentials)
    (hpolicy : db'.policyState = db.policyState) : LaterPolicy db db' where
  policy := .of_eq (by rw [storedRevision, hpolicy, storedRevision])
    (by rw [storedFingerprint, hpolicy, storedFingerprint])
  credentials := fun userId => .of_eq (by rw [storedGeneration, hcredentials, storedGeneration])
    (by rw [storedSecrets, hcredentials, storedSecrets])

/-- The policy row is the one the latest refresh left. -/
def LatestPolicy (log : List Refreshed) (db : Database) : Prop :=
  ∀ record ∈ log.getLast?, ∃ row, db.policyState = some row ∧ row.revision = record.revision ∧
    row.fingerprint = fingerprintOf record.grants

/-- What a run keeps: every refresh left a state that came before this one. -/
structure PolicyHistory (vault : Vault) (log : List Refreshed) (db : Database) : Prop where
  left : ∀ record ∈ log, ∃ db', record.Left vault db' ∧ LaterPolicy db' db
  latest : LatestPolicy log db

/-- A change without a refresh. -/
theorem PolicyHistory.later {log : List Refreshed} {db db' : Database}
    (h : PolicyHistory vault log db) (hlater : LaterPolicy db db')
    (hpolicy : db'.policyState = db.policyState) : PolicyHistory vault log db' where
  left := fun record hmem => by
    obtain ⟨old, hleft, hold⟩ := h.left record hmem
    exact ⟨old, hleft, hold.trans hlater⟩
  latest := fun record hmem => by
    rw [hpolicy]
    exact h.latest record hmem

theorem PolicyHistory.refreshed {log : List Refreshed} {db db' : Database}
    {fresh : String → String} {now : Int} {authorization : AuthorizationLayer}
    (h : PolicyHistory vault log db)
    (hrefresh : refresh vault fresh now db = .ok (authorization, db')) :
    PolicyHistory vault (log ++ [refreshedBy now db authorization db']) db' where
  left := fun record hmem => by
    rcases List.mem_append.1 hmem with hmem | hmem
    · obtain ⟨old, hleft, hold⟩ := h.left record hmem
      exact ⟨old, hleft, hold.trans (laterPolicy_refresh hrefresh)⟩
    · rw [List.mem_singleton.1 hmem]
      exact ⟨db', left_refreshedBy hrefresh, .refl db'⟩
  latest := fun record hmem => by
    rw [List.getLast?_concat, Option.mem_some_iff] at hmem
    rw [← hmem]
    exact (left_refreshedBy hrefresh).policy

theorem policyHistory_run {db db' : Database} {log : List Refreshed}
    (h : PolicyRun vault db log db') : PolicyHistory vault log db' := by
  induction h with
  | start => exact ⟨fun _ h => absurd h List.not_mem_nil, fun _ h => by cases h⟩
  | changed _ hcredentials hpolicy ih =>
    exact ih.later (laterPolicy_of_eq hcredentials hpolicy) hpolicy
  | @initialized db' _ _ fresh userId ih =>
    have hpolicy := @policyState_initialized fresh db' userId
    refine ih.later ⟨?_, versioned_of_kept (kept_initialized fresh userId db')⟩ hpolicy
    exact .of_eq (by rw [storedRevision, hpolicy, storedRevision])
      (by rw [storedFingerprint, hpolicy, storedFingerprint])
  | reset _ hreset ih =>
    have hpolicy := policyState_reset hreset
    refine ih.later ⟨?_, versioned_reset hreset⟩ hpolicy
    exact .of_eq (by rw [storedRevision, hpolicy, storedRevision])
      (by rw [storedFingerprint, hpolicy, storedFingerprint])
  | refreshed _ hrefresh ih => exact ih.refreshed hrefresh

/-! ## What revisions say -/

theorem grants_eq_of_fingerprint {log : List Refreshed} (hhash : CollisionFree log)
    {a b : Refreshed} (ha : a ∈ log) (hb : b ∈ log)
    (h : fingerprintOf a.grants = fingerprintOf b.grants) : a.grants = b.grants :=
  fingerprintBytes_injective (hhash a ha b hb h)

theorem CollisionFree.front {log : List Refreshed} {record : Refreshed}
    (h : CollisionFree (log ++ [record])) : CollisionFree log := fun a ha b hb =>
  h a (List.mem_append_left _ ha) b (List.mem_append_left _ hb)

/-- The revision after another refresh. -/
def Refreshed.Counts (a b : Refreshed) : Prop :=
  b.revision = a.revision + if a.grants = b.grants then 0 else 1

theorem counts_refreshed {log : List Refreshed} {db db' : Database} {fresh : String → String}
    {now : Int} {authorization : AuthorizationLayer} {a : Refreshed} (hlatest : LatestPolicy log db)
    (ha : a ∈ log.getLast?)
    (hrefresh : refresh vault fresh now db = .ok (authorization, db'))
    (hhash : fingerprintOf a.grants =
        fingerprintOf (refreshedBy now db authorization db').grants →
      a.grants = (refreshedBy now db authorization db').grants) :
    a.Counts (refreshedBy now db authorization db') := by
  obtain ⟨row, hrow, hrevision, hfingerprint⟩ := hlatest a ha
  obtain ⟨policy, hpolicy, -, -, -, hstored, -⟩ := refresh_eq_ok hrefresh
  have hnext := (nextPolicy_some row (fingerprintOf (grants now db)) (monthPeriod now) now).2
  rw [← hrow, ← hpolicy, hfingerprint, hrevision] at hnext
  simp only [refreshedBy] at hhash
  have hiff : fingerprintOf a.grants = fingerprintOf (grants now db) ↔ a.grants = grants now db :=
    ⟨hhash, fun h => by rw [h]⟩
  rw [Refreshed.Counts]
  simp only [refreshedBy, hstored, Option.map_some, Option.getD_some, hnext, hiff]

/-- **Equal revisions are equal authorizations**, and revisions never go back. -/
theorem pairwise_names {db db' : Database} {log : List Refreshed}
    (h : PolicyRun vault db log db') (hhash : CollisionFree log) :
    log.Pairwise Refreshed.Names := by
  induction h with
  | start => exact .nil
  | changed _ _ _ ih => exact ih hhash
  | initialized _ _ _ ih => exact ih hhash
  | reset _ _ ih => exact ih hhash
  | refreshed hrun hrefresh ih =>
    refine List.pairwise_append.2
      ⟨ih hhash.front, List.pairwise_singleton _ _, fun a ha b hb => ?_⟩
    obtain ⟨old, hleft, hold⟩ := (policyHistory_run hrun).left a ha
    rw [List.mem_singleton.1 hb]
    exact hleft.names (left_refreshedBy hrefresh) (hold.trans (laterPolicy_refresh hrefresh))
      (grants_eq_of_fingerprint hhash (List.mem_append_left _ ha)
        (List.mem_append_right _ (List.mem_singleton_self _)))

/-- One revision, one document. -/
theorem authorization_eq_of_revision {db db' : Database} {log : List Refreshed}
    (h : PolicyRun vault db log db') (hhash : CollisionFree log) {a b : Refreshed} (ha : a ∈ log)
    (hb : b ∈ log) (heq : a.revision = b.revision) : a.authorization = b.authorization := by
  have hnames := pairwise_names h hhash
  have hsame : log.Pairwise fun a b =>
      a.revision = b.revision → a.authorization = b.authorization :=
    hnames.imp fun h heq => (h.same heq).2
  exact hsame.forall_of_forall_of_flip (fun _ _ _ => rfl)
    (hnames.imp fun h heq => (h.same heq.symm).2.symm) ha hb heq

/-- The latest revision is the highest. -/
theorem revision_le_latest {db db' : Database} {log : List Refreshed}
    (h : PolicyRun vault db log db') (hhash : CollisionFree log) {a latest : Refreshed}
    (ha : a ∈ log) (hlatest : latest ∈ log.getLast?) : a.revision ≤ latest.revision := by
  obtain ⟨front, rfl⟩ := List.getLast?_eq_some_iff.1 hlatest
  rcases List.mem_append.1 ha with hmem | hmem
  · exact ((List.pairwise_append.1 (pairwise_names h hhash)).2.2 a hmem latest
      (List.mem_singleton_self _)).le
  · rw [List.mem_singleton.1 hmem]

/-- **Revisions count the changes** of what is granted. -/
theorem isChain_counts {db db' : Database} {log : List Refreshed}
    (h : PolicyRun vault db log db') (hhash : CollisionFree log) :
    log.IsChain Refreshed.Counts := by
  induction h with
  | start => exact .nil
  | changed _ _ _ ih => exact ih hhash
  | initialized _ _ _ ih => exact ih hhash
  | reset _ _ ih => exact ih hhash
  | refreshed hrun hrefresh ih =>
    refine List.isChain_append.2 ⟨ih hhash.front, .singleton _, fun a ha b hb => ?_⟩
    rw [List.head?_cons, Option.mem_some_iff] at hb
    rw [← hb]
    exact counts_refreshed (policyHistory_run hrun).latest ha hrefresh
      (grants_eq_of_fingerprint hhash (List.mem_append_left _ (List.mem_of_getLast? ha))
        (List.mem_append_right _ (List.mem_singleton_self _)))

/-- **A policy revision names an authorization.** In every run whose fingerprints do not collide,
the revisions never go back, equal revisions are equal grants and one document, and from one
refresh to the next the revision counts whether the grants have changed. -/
theorem policy_revision_faithful {db db' : Database} {log : List Refreshed}
    (h : PolicyRun vault db log db') (hhash : CollisionFree log) :
    log.Pairwise Refreshed.Names ∧ log.IsChain Refreshed.Counts :=
  ⟨pairwise_names h hhash, isChain_counts h hhash⟩

end Runs

/-! ## A renewal -/

/-- A vault in which a ciphertext is its own password. -/
def plainVault : Vault := ⟨fun text => some ⟨utf16 text, utf16 text⟩⟩

/-- One active user without a limit. -/
def accountDb : Database :=
  { Database.empty with users := Table.empty.set "u" ⟨.active, none⟩ }

/-- What a refresh gives, and the state it leaves. -/
def afterRefresh (db : Database) : AuthorizationLayer × Database :=
  match refresh plainVault (fun _ => "first") 0 db with
  | .ok result => result
  | .error _ => (⟨[], []⟩, db)

/-- The state a renewal of the secrets leaves. -/
def afterReset (db : Database) : Database :=
  match resetProxyCredentials plainVault (fun _ => "second") "u" db with
  | .ok db => db
  | .error _ => db

/-- Two refreshes, and a third after the secrets were renewed. -/
def renewal : List Refreshed :=
  let first := afterRefresh accountDb
  let second := afterRefresh first.2
  let third := afterRefresh (afterReset second.2)
  [] ++ [refreshedBy 0 accountDb first.1 first.2] ++ [refreshedBy 0 first.2 second.1 second.2] ++
    [refreshedBy 0 (afterReset second.2) third.1 third.2]

/-- The last refresh of the renewal. -/
def renewed : Refreshed :=
  let before := afterReset (afterRefresh (afterRefresh accountDb).2).2
  refreshedBy 0 before (afterRefresh before).1 (afterRefresh before).2

theorem renewed_mem : renewed ∈ renewal.getLast? := by
  rw [renewal, List.getLast?_append_of_ne_nil _ (List.cons_ne_nil _ _)]
  exact Option.mem_some_self _

theorem renewal_run : ∃ db, PolicyRun plainVault Database.empty renewal db := by
  have hrefresh : ∀ db ∈ [accountDb, (afterRefresh accountDb).2,
      afterReset (afterRefresh (afterRefresh accountDb).2).2],
      refresh plainVault (fun _ => "first") 0 db =
        .ok ((afterRefresh db).1, (afterRefresh db).2) := by decide +kernel
  have hreset : resetProxyCredentials plainVault (fun _ => "second") "u"
      (afterRefresh (afterRefresh accountDb).2).2 =
      .ok (afterReset (afterRefresh (afterRefresh accountDb).2).2) := by decide +kernel
  have haccount : PolicyRun plainVault Database.empty [] accountDb :=
    (PolicyRun.start Database.empty).changed rfl rfl
  have hfirst := haccount.refreshed (hrefresh _ (.head _))
  have hsecond := hfirst.refreshed (hrefresh _ (.tail _ (.head _)))
  have hthird := (hsecond.reset hreset).refreshed (hrefresh _ (.tail _ (.tail _ (.head _))))
  exact ⟨_, hthird⟩

theorem renewal_collisionFree : CollisionFree renewal := by
  have hgrants : renewal.map Refreshed.grants = [[("u", 1)], [("u", 1)], [("u", 2)]] := by
    decide +kernel
  have hcases : ∀ a ∈ renewal, a.grants = [("u", 1)] ∨ a.grants = [("u", 2)] := by
    intro a ha
    have hmem : a.grants ∈ renewal.map Refreshed.grants := List.mem_map_of_mem ha
    rw [hgrants] at hmem
    simpa using hmem
  have hne : sha256 (fingerprintBytes [("u", 1)]) ≠ sha256 (fingerprintBytes [("u", 2)]) := by
    decide +kernel
  intro a ha b hb heq
  rcases hcases a ha with h | h <;> rcases hcases b hb with h' | h' <;> rw [h, h'] at heq ⊢
  · exact absurd heq hne
  · exact absurd heq.symm hne

theorem renewal_faithful :
    renewal.map Refreshed.revision = [1, 1, 2] ∧ renewal.Pairwise Refreshed.Names ∧
      renewal.IsChain Refreshed.Counts := by
  obtain ⟨db, hrun⟩ := renewal_run
  have hrevisions : renewal.map Refreshed.revision = [1, 1, 2] := by decide +kernel
  exact ⟨hrevisions, policy_revision_faithful hrun renewal_collisionFree⟩

end Bifurcation.Panel
