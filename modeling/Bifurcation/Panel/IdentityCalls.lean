import Bifurcation.Panel.Identity

/-!
# What the account calls do

One inversion lemma for each statement and each transaction of `Identity`. Two preorders say how
rows of `auth_flows` and `sessions` may change: a row keeps its owner, a consumed flow stays
consumed, a flow that is new has the id that was drawn, and a session that is new is the one the
call reports.

Main results: `commit_effect` and `perform_effect`, what a committed call can do to flows and
sessions, and `check_frame`, that a check writes rate limits only.
-/

namespace Bifurcation.Panel.Identity

variable {vault : Vault} {draw : Draw} {now : Int} {s s' : Accounts} {done : Done}

/-! ## Statements -/

/-- The row of a session that is issued. -/
def newSession (userId : String) (now : Int) : SessionRow where
  userId
  expiresAt := now + sessionTtl
  reauthAt := now

theorem issueSession_eq_ok {token userId : String} (h : issueSession token userId now s = .ok s') :
    s.sessions.get? (tokenHash token) = none ∧
      s' = { s with sessions := s.sessions.set (tokenHash token) (newSession userId now) } := by
  simp only [issueSession, bind_eq_ok, found_eq_ok, Table.insert?_eq_some, pure_eq_ok] at h
  obtain ⟨sessions, ⟨hnew, rfl⟩, rfl⟩ := h
  exact ⟨hnew, rfl⟩

theorem insertFlow_eq_ok {id : String} {flow : FlowRow} (h : insertFlow id flow s = .ok s') :
    s.authFlows.get? id = none ∧ s' = { s with authFlows := s.authFlows.set id flow } := by
  simp only [insertFlow, bind_eq_ok, failIf_eq_ok, exists_const, found_eq_ok,
    Table.insert?_eq_some, pure_eq_ok] at h
  obtain ⟨-, authFlows, ⟨hnew, rfl⟩, rfl⟩ := h
  exact ⟨hnew, rfl⟩

theorem refreshPolicy_eq_ok (h : refreshPolicy vault draw now s = .ok s') :
    ∃ panel, s' = { s with panel } := by
  simp only [refreshPolicy, bind_eq_ok, pure_eq_ok] at h
  obtain ⟨⟨_, panel⟩, -, rfl⟩ := h
  exact ⟨panel, rfl⟩

theorem insertPasskey_eq_ok {userId name : String} {info : Registration}
    (h : insertPasskey userId name info now s = .ok s') :
    ∃ passkeys, s' = { s with passkeys } := by
  simp only [insertPasskey, bind_eq_ok, failIf_eq_ok, exists_const, pure_eq_ok] at h
  obtain ⟨-, rfl⟩ := h
  exact ⟨_, rfl⟩

theorem insertOnboardingKey_eq_ok {userId : String} {passkey : Option String}
    {info : Option Registration} (h : insertOnboardingKey userId passkey info now s = .ok s') :
    ∃ passkeys, s' = { s with passkeys } := by
  unfold insertOnboardingKey at h
  split at h
  · exact insertPasskey_eq_ok h
  · simp only [pure_eq_ok] at h
    exact ⟨s.passkeys, h.symm⟩

theorem consumeFlow_eq_ok {id : String} (h : consumeFlow id now s = .ok s') :
    (∃ flow, s.authFlows.get? id = some flow ∧ flow.consumedAt = none) ∧
      s' = consumeFlows (fun id' _ => id' = id) now s := by
  simp only [consumeFlow, bind_eq_ok, failIf_eq_ok, exists_const, pure_eq_ok] at h
  obtain ⟨hopen, rfl⟩ := h
  refine ⟨?_, rfl⟩
  cases hflow : s.authFlows.get? id with
  | none => simp [hflow] at hopen
  | some flow =>
    simp only [hflow, Option.all_some, Bool.not_eq_true, Option.isSome_eq_false_iff,
      Option.isNone_iff_eq_none] at hopen
    exact ⟨flow, rfl, hopen⟩

/-- A row after some flows were consumed. -/
theorem get?_consumeFlows {p : String → FlowRow → Bool} {id : String} {flow' : FlowRow}
    (h : (consumeFlows p now s).authFlows.get? id = some flow') :
    ∃ flow, s.authFlows.get? id = some flow ∧ flow'.userId = flow.userId ∧
      (flow.consumedAt ≠ none → flow'.consumedAt ≠ none) ∧
      (p id flow = true → flow'.consumedAt ≠ none) := by
  simp only [consumeFlows, Table.get?_updateWhere, Option.map_eq_some_iff] at h
  obtain ⟨flow, hflow, rfl⟩ := h
  refine ⟨flow, hflow, ?_⟩
  by_cases hp : p id flow = true <;> by_cases hopen : flow.consumedAt.isNone = true
  · simp [hp, hopen]
  · have hdone : flow.consumedAt ≠ none := fun hnone => hopen (by rw [hnone]; rfl)
    simp [hp, hopen, hdone]
  · simp [hp]
  · simp [hp]

/-! ## Flows and sessions -/

/-- The flow a call has completed. -/
def Done.flow : Done → Option String
  | .passkeyLogin flowId _ _ _ => some flowId
  | .passkeyReauth flowId _ _ => some flowId
  | .passkeyAdded flowId _ => some flowId
  | .onboarded _ flowId _ _ => some flowId
  | _ => none

/-- The session a call has issued, and its user. -/
def Done.session : Done → Option (String × String)
  | .setup userId hash => some (hash, userId)
  | .passwordLogin userId hash => some (hash, userId)
  | .passkeyLogin _ _ userId hash => some (hash, userId)
  | .onboarded _ _ userId hash => some (hash, userId)
  | _ => none

/-- The user whose sessions a call has revoked: a disable, a password change or a recovery. -/
def Done.revokes : Done → Option String
  | .passwordChanged userId => some userId
  | .disabled userId => some userId
  | .onboarded .recovery _ userId _ => some userId
  | _ => none

/-- Rows of `auth_flows` keep their owner and stay consumed; a new one has the drawn id. -/
def Flows (draw : Draw) (s s' : Accounts) : Prop :=
  ∀ id flow', s'.authFlows.get? id = some flow' → id = draw.flowId ∨
    ∃ flow, s.authFlows.get? id = some flow ∧ flow'.userId = flow.userId ∧
      (flow.consumedAt ≠ none → flow'.consumedAt ≠ none)

/-- Rows of `sessions` keep their owner; a new one is the one that is reported. -/
def Sessions (done : Done) (s s' : Accounts) : Prop :=
  ∀ hash row', s'.sessions.get? hash = some row' → done.session = some (hash, row'.userId) ∨
    ∃ row, s.sessions.get? hash = some row ∧ row'.userId = row.userId

theorem Flows.of_eq (h : s'.authFlows = s.authFlows) : Flows draw s s' := by
  intro id flow' hflow
  rw [h] at hflow
  exact .inr ⟨flow', hflow, rfl, fun h => h⟩

theorem Flows.trans {s₁ s₂ s₃ : Accounts} (h : Flows draw s₁ s₂) (h' : Flows draw s₂ s₃) :
    Flows draw s₁ s₃ := by
  intro id flow₃ h₃
  obtain hnew | ⟨flow₂, h₂, howner, hdone⟩ := h' id flow₃ h₃
  · exact .inl hnew
  obtain hnew | ⟨flow₁, h₁, howner', hdone'⟩ := h id flow₂ h₂
  · exact .inl hnew
  · exact .inr ⟨flow₁, h₁, howner.trans howner', fun h => hdone (hdone' h)⟩

theorem flows_consumeFlows (p : String → FlowRow → Bool) (now : Int) (s : Accounts) :
    Flows draw s (consumeFlows p now s) := by
  intro id flow' hflow
  obtain ⟨flow, h, howner, hdone, -⟩ := get?_consumeFlows hflow
  exact .inr ⟨flow, h, howner, hdone⟩

theorem flows_insertFlow {flow : FlowRow} (h : insertFlow draw.flowId flow s = .ok s') :
    Flows draw s s' := by
  obtain ⟨-, rfl⟩ := insertFlow_eq_ok h
  intro id flow' hflow
  by_cases hid : id = draw.flowId
  · exact .inl hid
  · rw [Table.get?_set_of_ne _ _ hid] at hflow
    exact .inr ⟨flow', hflow, rfl, fun h => h⟩

theorem flows_issueOnboarding {userId : String} {purpose : Onboarding}
    (h : issueOnboarding userId purpose draw now s = .ok s') : Flows draw s s' :=
  (flows_consumeFlows _ now s).trans (flows_insertFlow h)

theorem Sessions.of_eq (h : s'.sessions = s.sessions) : Sessions done s s' := by
  intro hash row' hrow
  rw [h] at hrow
  exact .inr ⟨row', hrow, rfl⟩

theorem sessions_deleteWhere (p : String → SessionRow → Bool)
    (h : s'.sessions = s.sessions.deleteWhere p) : Sessions done s s' := by
  intro hash row' hrow
  rw [h, Table.get?_deleteWhere, Option.filter_eq_some_iff] at hrow
  exact .inr ⟨row', hrow.1, rfl⟩

/-- A session is issued beside some of those that are there. -/
theorem sessions_issue (kept : Table String SessionRow) {hash userId : String}
    (hdone : done.session = some (hash, userId))
    (hkept : ∀ hash row, kept.get? hash = some row → s.sessions.get? hash = some row)
    (h : s'.sessions = kept.set hash (newSession userId now)) : Sessions done s s' := by
  intro hash' row' hrow
  rw [h, Table.get?_set] at hrow
  split_ifs at hrow with heq
  · obtain rfl := Option.some.inj hrow
    rw [heq]
    exact .inl hdone
  · exact .inr ⟨row', hkept _ _ hrow, rfl⟩

/-- Reauthentication rewrites a session that is there. -/
theorem sessions_set {hash : String} {row : SessionRow} {reauthAt : Int}
    (hrow : s.sessions.get? hash = some row)
    (h : s'.sessions = s.sessions.set hash { row with reauthAt }) : Sessions done s s' := by
  intro hash' row' hrow'
  rw [h, Table.get?_set] at hrow'
  split_ifs at hrow' with heq
  · obtain rfl := Option.some.inj hrow'
    exact .inr ⟨row, by rw [heq]; exact hrow, rfl⟩
  · exact .inr ⟨row', hrow', rfl⟩

/-! ## Transactions after a wait -/

theorem setupCommit_eq_ok {username hash : String}
    (h : setupCommit vault username hash draw now s = .ok (done, s')) :
    s.users.rows = [] ∧ done = .setup draw.userId (tokenHash draw.token) ∧
      s.sessions.get? (tokenHash draw.token) = none ∧
      ∃ panel, s' = { s with
        users := s.users.set draw.userId ⟨username, .admin, .active, none, 1, now⟩
        passwords := s.passwords.set draw.userId ⟨hash, now⟩
        sessions := s.sessions.set (tokenHash draw.token) (newSession draw.userId now)
        panel } := by
  simp only [setupCommit, requireSetup, bind_eq_ok, failIf_eq_ok, exists_const,
    found_eq_ok, Table.insert?_eq_some, pure_eq_ok, Prod.mk.injEq] at h
  obtain ⟨hsetup, users, ⟨-, rfl⟩, passwords, ⟨-, rfl⟩, s₁, hrefresh, s₂, hissue, rfl, rfl⟩ := h
  obtain ⟨panel, rfl⟩ := refreshPolicy_eq_ok hrefresh
  obtain ⟨hnew, rfl⟩ := issueSession_eq_ok hissue
  exact ⟨by simpa [needsSetup] using hsetup, rfl, hnew, panel, rfl⟩

theorem passwordLoginCommit_eq_ok {username : String} {user : Option (String × AccountRow)}
    {credential : Option PasswordRow} {valid : Bool}
    (h : passwordLoginCommit username user credential valid draw now s = .ok (done, s')) :
    ∃ userId row password fresh current, user = some (userId, row) ∧
      credential = some password ∧ s.users.get? userId = some fresh ∧ fresh.status = .active ∧
      s.passwords.get? userId = some current ∧ current.hash = password.hash ∧
      done = .passwordLogin userId (tokenHash draw.token) ∧
      s.sessions.get? (tokenHash draw.token) = none ∧
      ∃ rateLimits, s' = { s with
        rateLimits
        sessions := s.sessions.set (tokenHash draw.token) (newSession userId now) } := by
  simp only [passwordLoginCommit, bind_eq_ok, failIf_eq_ok, exists_const, found_eq_ok, pure_eq_ok,
    Prod.mk.injEq, Prod.exists, not_or, not_not] at h
  obtain ⟨-, userId, row, rfl, password, rfl, -, fresh, hfresh, ⟨hactive, hhash⟩, s₁, hissue, rfl,
    rfl⟩ := h
  obtain ⟨current, hcurrent, hsame⟩ := Option.map_eq_some_iff.1 hhash
  obtain ⟨hnew, rfl⟩ := issueSession_eq_ok hissue
  exact ⟨userId, row, password, fresh, current, rfl, rfl, hfresh, hactive, hcurrent, hsame, rfl,
    hnew, _, rfl⟩

theorem reauthenticateCommit_eq_ok {principal : Principal} {valid : Bool}
    (h : reauthenticateCommit principal valid now s = .ok (done, s')) :
    ∃ hash session, principal.sessionHash = some hash ∧ s.sessions.get? hash = some session ∧
      done = .reauthenticated principal.userId ∧
      s' = { s with sessions := s.sessions.set hash { session with reauthAt := now } } := by
  simp only [reauthenticateCommit, bind_eq_ok, failIf_eq_ok, exists_const, found_eq_ok,
    Option.filter_eq_some_iff, pure_eq_ok, Prod.mk.injEq] at h
  obtain ⟨-, hash, hhash, session, ⟨hsession, -⟩, rfl, rfl⟩ := h
  exact ⟨hash, session, hhash, hsession, rfl, rfl⟩

theorem changePasswordCommit_eq_ok {principal : Principal} {hash : String}
    (h : changePasswordCommit principal hash now s = .ok (done, s')) :
    (∃ session, sessionOf principal s = some session) ∧
      done = .passwordChanged principal.userId ∧
      s' = { s with
        passwords := s.passwords.updateWhere (fun userId _ => userId = principal.userId)
          fun _ => ⟨hash, now⟩
        sessions := s.sessions.deleteWhere fun _ row => row.userId = principal.userId } := by
  simp only [changePasswordCommit, bind_eq_ok, failIf_eq_ok, exists_const, found_eq_ok,
    pure_eq_ok, Prod.mk.injEq] at h
  obtain ⟨session, hsession, -, rfl, rfl⟩ := h
  exact ⟨⟨session, hsession⟩, rfl, rfl⟩

/-- The tables when a flow was answered by a passkey. -/
def verified (flowId keyId : String) (key : PasskeyRow) (verification : Verification) (now : Int)
    (s : Accounts) : Accounts :=
  { consumeFlows (fun id _ => id = flowId) now s with
    passkeys := s.passkeys.set keyId { key with
      counter := verification.newCounter, backedUp := verification.credentialBackedUp } }

theorem authenticationVerifyCommit_eq_ok {flowId keyId : String} {flow : FlowRow}
    {key : PasskeyRow} {principal : Option Principal} {verification : Option Verification}
    (h : authenticationVerifyCommit flowId flow keyId key principal verification draw now s =
      .ok (done, s')) :
    ∃ verification fresh freshKey, s.users.get? key.userId = some fresh ∧ fresh.status = .active ∧
      s.passkeys.get? keyId = some freshKey ∧ freshKey.userId = key.userId ∧
      freshKey.publicKey = key.publicKey ∧ freshKey.counter = key.counter ∧
      (∃ row, s.authFlows.get? flowId = some row ∧ row.consumedAt = none) ∧
      ((flow.purpose = .reauth ∧ done = .passkeyReauth flowId keyId key.userId ∧
          ∃ hash session, principal.bind Principal.sessionHash = some hash ∧
            s.sessions.get? hash = some session ∧
            s' = { verified flowId keyId freshKey verification now s with
              sessions := s.sessions.set hash { session with reauthAt := now } }) ∨
        (flow.purpose ≠ .reauth ∧
          done = .passkeyLogin flowId keyId key.userId (tokenHash draw.token) ∧
          issueSession draw.token key.userId now
            (verified flowId keyId freshKey verification now s) = .ok s')) := by
  simp only [authenticationVerifyCommit, bind_eq_ok, failIf_eq_ok, exists_const, found_eq_ok,
    not_or, not_not] at h
  obtain ⟨verification, -, row, hload, fresh, hfresh, freshKey, hkey,
    ⟨hactive, hcounter, hpublic, howner⟩, s₁, hconsume, h⟩ := h
  obtain ⟨hopen, rfl⟩ := consumeFlow_eq_ok hconsume
  refine ⟨verification, fresh, freshKey, hfresh, hactive, hkey, howner, hpublic, hcounter, hopen,
    ?_⟩
  by_cases hpurpose : flow.purpose = .reauth
  · simp only [hpurpose, if_true, bind_eq_ok, found_eq_ok, pure_eq_ok, Prod.mk.injEq] at h
    obtain ⟨hash, hhash, session, hsession, rfl, rfl⟩ := h
    exact .inl ⟨hpurpose, rfl, hash, session, hhash, hsession, rfl⟩
  · simp only [hpurpose, if_false, bind_eq_ok, pure_eq_ok, Prod.mk.injEq] at h
    obtain ⟨s₂, hissue, rfl, rfl⟩ := h
    exact .inr ⟨hpurpose, rfl, hissue⟩

theorem newPasskeyVerifyCommit_eq_ok {principal : Principal} {flowId name : String}
    {registration : Option Registration}
    (h : newPasskeyVerifyCommit principal flowId name registration now s = .ok (done, s')) :
    (∃ session, sessionOf principal s = some session) ∧
      (∃ row, s.authFlows.get? flowId = some row ∧ row.consumedAt = none) ∧
      done = .passkeyAdded flowId principal.userId ∧
      ∃ passkeys, s' = { consumeFlows (fun id _ => id = flowId) now s with passkeys } := by
  simp only [newPasskeyVerifyCommit, assertSession, bind_eq_ok, failIf_eq_ok, exists_const,
    found_eq_ok, pure_eq_ok, Prod.mk.injEq] at h
  obtain ⟨info, -, ⟨-, -, session, hsession, -⟩, row, -, s₁, hconsume, s₂, hinsert, rfl, rfl⟩ := h
  obtain ⟨hopen, rfl⟩ := consumeFlow_eq_ok hconsume
  obtain ⟨passkeys, rfl⟩ := insertPasskey_eq_ok hinsert
  exact ⟨⟨session, hsession⟩, hopen, rfl, passkeys, rfl⟩

/-- The sessions when a completion issues its own. -/
def keptSessions (purpose : Onboarding) (userId : String) (s : Accounts) : Table String SessionRow :=
  if purpose = .recovery then s.sessions.deleteWhere fun _ row => row.userId = userId
  else s.sessions

/-- The flows after a completion. -/
def closedFlows (flowId userId : String) (now : Int) (s : Accounts) : Accounts :=
  consumeFlows (fun _ flow => flow.userId = some userId) now
    (consumeFlows (fun id _ => id = flowId) now s)

theorem onboardingCompleteCommit_eq_ok {purpose : Onboarding} {token : String}
    {opened : OnboardingFlow} {passkey : Option String} {registration : Option Registration}
    {hash : String}
    (h : onboardingCompleteCommit vault purpose token opened passkey registration hash draw now s =
      .ok (done, s')) :
    ∃ current, onboardingFlow token purpose now s = .ok current ∧
      (∃ row, s.authFlows.get? opened.flowId = some row ∧ row.consumedAt = none) ∧
      (keptSessions purpose opened.userId s).get? (tokenHash draw.token) = none ∧
      done = .onboarded purpose.purpose opened.flowId opened.userId (tokenHash draw.token) ∧
      ∃ passkeys panel, s' = { closedFlows opened.flowId opened.userId now s with
        users := s.users.updateWhere (fun id _ => id = opened.userId) fun user =>
          { user with status := .active, version := current.user.version + 1 }
        passwords := s.passwords.set opened.userId ⟨hash, now⟩
        sessions := (keptSessions purpose opened.userId s).set (tokenHash draw.token)
          (newSession opened.userId now)
        passkeys
        panel } := by
  simp only [onboardingCompleteCommit, bind_eq_ok, failIf_eq_ok, exists_const, pure_eq_ok,
    Prod.mk.injEq] at h
  obtain ⟨-, current, hcurrent, -, s₁, hconsume, s₂, hinsert, s₃, hrefresh, s₄, hissue, rfl,
    rfl⟩ := h
  obtain ⟨hopen, rfl⟩ := consumeFlow_eq_ok hconsume
  obtain ⟨passkeys, rfl⟩ := insertOnboardingKey_eq_ok hinsert
  obtain ⟨panel, rfl⟩ := refreshPolicy_eq_ok hrefresh
  obtain ⟨hnew, rfl⟩ := issueSession_eq_ok hissue
  refine ⟨current, hcurrent, hopen, ?_, rfl, passkeys, panel, ?_⟩
  · cases purpose <;> exact hnew
  · cases purpose <;> rfl

/-! ## Synchronous transactions -/

theorem updateUser_eq_ok {principal : Principal} {id : String} {changes : UserChanges}
    (h : updateUser vault principal id changes draw now s = .ok (done, s')) :
    ∃ user, s.users.get? id = some user ∧
      (changes.status = some .active → (s.passwords.get? id).isSome) ∧
      (user.administers = true → changes.role = some .user ∨ changes.status = some .disabled →
        1 < (s.users.rows.filter fun x => x.2.administers).length) ∧
      done = (if changes.status = some .disabled then .disabled id else .quiet) ∧
      ∃ panel, s' = { s with
        users := s.users.set id (changes.apply user)
        sessions := if changes.status = some .disabled then
          s.sessions.deleteWhere fun _ row => row.userId = id else s.sessions
        panel } := by
  simp only [updateUser, bind_eq_ok, failIf_eq_ok, exists_const, found_eq_ok, pure_eq_ok,
    Prod.mk.injEq, not_and, Nat.not_le] at h
  obtain ⟨_, -, user, huser, -, hpassword, hadmin, s₁, hrefresh, rfl, rfl⟩ := h
  obtain ⟨panel, rfl⟩ := refreshPolicy_eq_ok hrefresh
  refine ⟨user, huser, fun hactive => ?_, hadmin, rfl, panel, ?_⟩
  · have hsome := hpassword hactive
    rw [Option.isNone_iff_eq_none] at hsome
    exact Option.isSome_iff_ne_none.2 hsome
  · split_ifs <;> rfl

theorem createUser_eq_ok {principal : Principal} {username : String} {role : Role}
    {limit : Option Int} (h : createUser principal username role limit draw now s = .ok s') :
    s.users.get? draw.userId = none ∧
      issueOnboarding draw.userId .activation draw now
        { s with users := s.users.set draw.userId ⟨username, role, .pending, limit, 1, now⟩ } =
          .ok s' := by
  simp only [createUser, bind_eq_ok, failIf_eq_ok, exists_const, found_eq_ok,
    Table.insert?_eq_some] at h
  obtain ⟨_, -, -, -, users, ⟨hnew, rfl⟩, h⟩ := h
  exact ⟨hnew, h⟩

theorem adminInit_eq_ok {username : String} (h : adminInit username draw now s = .ok s') :
    s.users.get? draw.userId = none ∧
      issueOnboarding draw.userId .activation draw now
        { s with users := s.users.set draw.userId ⟨username, .admin, .pending, none, 1, now⟩ } =
          .ok s' := by
  simp only [adminInit, bind_eq_ok, failIf_eq_ok, exists_const, found_eq_ok,
    Table.insert?_eq_some] at h
  obtain ⟨-, users, ⟨hnew, rfl⟩, h⟩ := h
  exact ⟨hnew, h⟩

/-- An API key remembers when it was used; a session is only read. -/
theorem authenticate_eq_ok {headers : Headers} {principal : Principal}
    (h : authenticate headers now s = .ok (principal, s')) :
    ∃ apiKeys, s' = { s with apiKeys } := by
  cases headers with
  | bearer token =>
    simp only [authenticate, bind_eq_ok, found_eq_ok, failIf_eq_ok, exists_const, pure_eq_ok,
      Prod.mk.injEq, Prod.exists] at h
    obtain ⟨_, -, _, _, -, _, -, -, -, rfl⟩ := h
    exact ⟨_, rfl⟩
  | cookie token =>
    simp only [authenticate, bind_eq_ok, found_eq_ok, failIf_eq_ok, exists_const, pure_eq_ok,
      Prod.mk.injEq] at h
    obtain ⟨_, -, _, -, _, -, -, -, rfl⟩ := h
    exact ⟨_, rfl⟩

theorem issueOnboarding_eq_ok {userId : String} {purpose : Onboarding}
    (h : issueOnboarding userId purpose draw now s = .ok s') :
    ∃ authFlows, s' = { s with authFlows } := by
  obtain ⟨-, rfl⟩ := insertFlow_eq_ok h
  exact ⟨_, rfl⟩

/-! ## Effects -/

/-- What a committed call does to flows and sessions. -/
structure Effect (draw : Draw) (done : Done) (s s' : Accounts) : Prop where
  flows : Flows draw s s'
  sessions : Sessions done s s'
  /-- A session is issued under the token that was drawn. -/
  issued : ∀ hash userId, done.session = some (hash, userId) → hash = tokenHash draw.token
  /-- A flow is completed once: it was open, and it is consumed. -/
  completes : ∀ id, done.flow = some id →
    (∃ flow, s.authFlows.get? id = some flow ∧ flow.consumedAt = none) ∧
      ∀ flow, s'.authFlows.get? id = some flow → flow.consumedAt ≠ none
  /-- A completion leaves no open flow of its user. -/
  closes : ∀ purpose id userId hash, done = .onboarded purpose id userId hash →
    ∀ id' flow, s'.authFlows.get? id' = some flow → flow.userId = some userId →
      flow.consumedAt ≠ none
  /-- A revocation leaves no session of its user but the one it issues. -/
  revokes : ∀ userId, done.revokes = some userId → ∀ hash row, s'.sessions.get? hash = some row →
    row.userId = userId → done.session = some (hash, userId)

/-- A call that neither completes a flow nor touches sessions. -/
theorem Effect.quiet (hflows : Flows draw s s') (hsessions : Sessions .quiet s s') :
    Effect draw .quiet s s' where
  flows := hflows
  sessions := hsessions
  issued _ _ h := by cases h
  completes _ h := by cases h
  closes _ _ _ _ h := by cases h
  revokes _ h := by cases h

/-- The flow that was answered is consumed, and it was open. -/
theorem completes_of_consumeFlows {flowId : String}
    (hopen : ∃ row, s.authFlows.get? flowId = some row ∧ row.consumedAt = none)
    (h : s'.authFlows = (consumeFlows (fun id _ => id = flowId) now s).authFlows) :
    (∃ flow, s.authFlows.get? flowId = some flow ∧ flow.consumedAt = none) ∧
      ∀ flow, s'.authFlows.get? flowId = some flow → flow.consumedAt ≠ none := by
  refine ⟨hopen, fun flow hflow => ?_⟩
  rw [h] at hflow
  obtain ⟨_, -, -, -, hconsumed⟩ := get?_consumeFlows hflow
  exact hconsumed (by simp)

theorem flows_of_consumeFlows (p : String → FlowRow → Bool) (now : Int)
    (h : s'.authFlows = (consumeFlows p now s).authFlows) : Flows draw s s' := by
  intro id flow' hflow
  rw [h] at hflow
  exact flows_consumeFlows p now s id flow' hflow

theorem setupCommit_effect {username hash : String}
    (h : setupCommit vault username hash draw now s = .ok (done, s')) :
    Effect draw done s s' := by
  obtain ⟨-, rfl, -, panel, rfl⟩ := setupCommit_eq_ok h
  exact
    { flows := .of_eq rfl
      sessions := sessions_issue s.sessions rfl (fun _ _ h => h) rfl
      issued := fun _ _ h => by cases h; rfl
      completes := fun _ h => by cases h
      closes := fun _ _ _ _ h => by cases h
      revokes := fun _ h => by cases h }

theorem passwordLoginCommit_effect {username : String} {user : Option (String × AccountRow)}
    {credential : Option PasswordRow} {valid : Bool}
    (h : passwordLoginCommit username user credential valid draw now s = .ok (done, s')) :
    Effect draw done s s' := by
  obtain ⟨userId, row, password, fresh, current, -, -, -, -, -, -, rfl, -, rateLimits, rfl⟩ :=
    passwordLoginCommit_eq_ok h
  exact
    { flows := .of_eq rfl
      sessions := sessions_issue s.sessions rfl (fun _ _ h => h) rfl
      issued := fun _ _ h => by cases h; rfl
      completes := fun _ h => by cases h
      closes := fun _ _ _ _ h => by cases h
      revokes := fun _ h => by cases h }

theorem reauthenticateCommit_effect {principal : Principal} {valid : Bool}
    (h : reauthenticateCommit principal valid now s = .ok (done, s')) : Effect draw done s s' := by
  obtain ⟨hash, session, -, hsession, rfl, rfl⟩ := reauthenticateCommit_eq_ok h
  exact
    { flows := .of_eq rfl
      sessions := sessions_set hsession rfl
      issued := fun _ _ h => by cases h
      completes := fun _ h => by cases h
      closes := fun _ _ _ _ h => by cases h
      revokes := fun _ h => by cases h }

theorem changePasswordCommit_effect {principal : Principal} {hash : String}
    (h : changePasswordCommit principal hash now s = .ok (done, s')) : Effect draw done s s' := by
  obtain ⟨-, rfl, rfl⟩ := changePasswordCommit_eq_ok h
  exact
    { flows := .of_eq rfl
      sessions := sessions_deleteWhere (fun _ row => row.userId = principal.userId) rfl
      issued := fun _ _ h => by cases h
      completes := fun _ h => by cases h
      closes := fun _ _ _ _ h => by cases h
      revokes := by
        intro userId hrevokes hash row hrow howner
        obtain rfl : principal.userId = userId := Option.some.inj hrevokes
        simp only [Table.get?_deleteWhere, Option.filter_eq_some_iff] at hrow
        simp [howner] at hrow }

theorem authenticationVerifyCommit_effect {flowId keyId : String} {flow : FlowRow}
    {key : PasskeyRow} {principal : Option Principal} {verification : Option Verification}
    (h : authenticationVerifyCommit flowId flow keyId key principal verification draw now s =
      .ok (done, s')) : Effect draw done s s' := by
  obtain ⟨verification, fresh, freshKey, -, -, -, -, -, -, hopen, hcases⟩ :=
    authenticationVerifyCommit_eq_ok h
  obtain ⟨-, rfl, hash, session, -, hsession, rfl⟩ | ⟨-, rfl, hissue⟩ := hcases
  · exact
      { flows := flows_of_consumeFlows (fun id _ => id = flowId) now rfl
        sessions := sessions_set hsession rfl
        issued := fun _ _ h => by cases h
        completes := fun _ h => by cases h; exact completes_of_consumeFlows hopen rfl
        closes := fun _ _ _ _ h => by cases h
        revokes := fun _ h => by cases h }
  · obtain ⟨-, rfl⟩ := issueSession_eq_ok hissue
    exact
      { flows := flows_of_consumeFlows (fun id _ => id = flowId) now rfl
        sessions := sessions_issue s.sessions rfl (fun _ _ h => h) rfl
        issued := fun _ _ h => by cases h; rfl
        completes := fun _ h => by cases h; exact completes_of_consumeFlows hopen rfl
        closes := fun _ _ _ _ h => by cases h
        revokes := fun _ h => by cases h }

theorem newPasskeyVerifyCommit_effect {principal : Principal} {flowId name : String}
    {registration : Option Registration}
    (h : newPasskeyVerifyCommit principal flowId name registration now s = .ok (done, s')) :
    Effect draw done s s' := by
  obtain ⟨-, hopen, rfl, passkeys, rfl⟩ := newPasskeyVerifyCommit_eq_ok h
  exact
    { flows := flows_of_consumeFlows (fun id _ => id = flowId) now rfl
      sessions := .of_eq rfl
      issued := fun _ _ h => by cases h
      completes := fun _ h => by cases h; exact completes_of_consumeFlows hopen rfl
      closes := fun _ _ _ _ h => by cases h
      revokes := fun _ h => by cases h }

theorem get?_keptSessions {purpose : Onboarding} {userId hash : String} {row : SessionRow}
    (h : (keptSessions purpose userId s).get? hash = some row) :
    s.sessions.get? hash = some row ∧ (purpose = .recovery → row.userId ≠ userId) := by
  unfold keptSessions at h
  split_ifs at h with hpurpose
  · rw [Table.get?_deleteWhere, Option.filter_eq_some_iff] at h
    exact ⟨h.1, fun _ => by simpa using h.2⟩
  · exact ⟨h, fun hrecovery => absurd hrecovery hpurpose⟩

theorem onboardingCompleteCommit_effect {purpose : Onboarding} {token : String}
    {opened : OnboardingFlow} {passkey : Option String} {registration : Option Registration}
    {hash : String}
    (h : onboardingCompleteCommit vault purpose token opened passkey registration hash draw now s =
      .ok (done, s')) : Effect draw done s s' := by
  obtain ⟨current, -, hopen, -, rfl, passkeys, panel, rfl⟩ := onboardingCompleteCommit_eq_ok h
  exact
    { flows := (flows_consumeFlows (fun id _ => id = opened.flowId) now s).trans
        (flows_of_consumeFlows (fun _ flow => flow.userId = some opened.userId) now rfl)
      sessions := sessions_issue _ rfl (fun _ _ h => (get?_keptSessions h).1) rfl
      issued := fun _ _ h => by cases h; rfl
      completes := by
        intro id hid
        obtain rfl : opened.flowId = id := Option.some.inj hid
        refine ⟨hopen, fun flow hflow => ?_⟩
        obtain ⟨flow₁, hflow₁, -, hdone, -⟩ := get?_consumeFlows hflow
        obtain ⟨_, -, -, -, hconsumed⟩ := get?_consumeFlows hflow₁
        exact hdone (hconsumed (by simp))
      closes := by
        intro purpose' id userId hash' hdone id' flow hflow howner
        obtain ⟨-, -, rfl, -⟩ := Done.onboarded.inj hdone
        obtain ⟨flow₁, -, howner₁, -, hconsumed⟩ := get?_consumeFlows hflow
        exact hconsumed (by simp [← howner₁, howner])
      revokes := by
        intro userId hrevokes hash' row hrow howner
        have hrecovery : purpose = .recovery ∧ opened.userId = userId := by
          cases purpose
          · cases hrevokes
          · exact ⟨rfl, Option.some.inj hrevokes⟩
        obtain ⟨rfl, rfl⟩ := hrecovery
        dsimp only at hrow
        rw [Table.get?_set] at hrow
        split_ifs at hrow with heq
        · rw [heq]
          rfl
        · exact absurd howner ((get?_keptSessions hrow).2 rfl) }

/-- **What a call can do to flows and sessions when it commits.** -/
theorem commit_effect {held : Held} {answer : Answer}
    (h : commit vault held answer draw now s = .ok (done, s')) : Effect draw done s s' := by
  cases held with
  | setupAdministrator username => exact setupCommit_effect h
  | passwordLogin username user credential => exact passwordLoginCommit_effect h
  | reauthenticatePassword principal => exact reauthenticateCommit_effect h
  | changePassword principal => exact changePasswordCommit_effect h
  | authenticationOptions reauth principal =>
    simp only [commit, authenticationOptionsCommit, bind_eq_ok, pure_eq_ok, Prod.mk.injEq] at h
    obtain ⟨s₁, hinsert, rfl, rfl⟩ := h
    obtain ⟨-, heq⟩ := insertFlow_eq_ok hinsert
    exact .quiet (flows_insertFlow hinsert) (.of_eq (by rw [heq]))
  | authenticationVerify flowId flow keyId key principal =>
    exact authenticationVerifyCommit_effect h
  | newPasskeyOptions principal =>
    simp only [commit, newPasskeyOptionsCommit, bind_eq_ok, pure_eq_ok, Prod.mk.injEq] at h
    obtain ⟨s₁, hinsert, rfl, rfl⟩ := h
    obtain ⟨-, heq⟩ := insertFlow_eq_ok hinsert
    exact .quiet (flows_insertFlow hinsert) (.of_eq (by rw [heq]))
  | newPasskeyVerify principal flowId name => exact newPasskeyVerifyCommit_effect h
  | onboardingOptions flowId =>
    simp only [commit, onboardingOptionsCommit, pure_eq_ok, Prod.mk.injEq] at h
    obtain ⟨rfl, rfl⟩ := h
    refine .quiet (fun id flow' hflow => ?_) (.of_eq rfl)
    simp only [Table.get?_updateWhere, Option.map_eq_some_iff] at hflow
    obtain ⟨flow, hflow, rfl⟩ := hflow
    refine .inr ⟨flow, hflow, ?_⟩
    split_ifs <;> exact ⟨rfl, fun h => h⟩
  | onboardingComplete purpose token opened passkey => exact onboardingCompleteCommit_effect h

theorem updateUser_effect {principal : Principal} {id : String} {changes : UserChanges}
    (h : updateUser vault principal id changes draw now s = .ok (done, s')) :
    Effect draw done s s' := by
  obtain ⟨user, -, -, -, rfl, panel, rfl⟩ := updateUser_eq_ok h
  by_cases hdisabled : changes.status = some .disabled
  · simp only [hdisabled, if_true]
    exact
      { flows := .of_eq rfl
        sessions := sessions_deleteWhere (fun _ row => row.userId = id) rfl
        issued := fun _ _ h => by cases h
        completes := fun _ h => by cases h
        closes := fun _ _ _ _ h => by cases h
        revokes := by
          intro userId hrevokes hash row hrow howner
          obtain rfl : id = userId := Option.some.inj hrevokes
          simp only [Table.get?_deleteWhere, Option.filter_eq_some_iff] at hrow
          simp [howner] at hrow }
  · simp only [hdisabled, if_false]
    exact .quiet (.of_eq rfl) (.of_eq rfl)

/-- **What a synchronous call can do to flows and sessions.** -/
theorem perform_effect {call : SyncCall} (h : perform vault call draw now s = .ok (done, s')) :
    Effect draw done s s' := by
  cases call with
  | updateUser principal id changes => exact updateUser_effect h
  | authenticate headers =>
    simp only [perform, bind_eq_ok, pure_eq_ok, Prod.mk.injEq, Prod.exists] at h
    obtain ⟨principal, s₁, hauth, rfl, rfl⟩ := h
    obtain ⟨_, rfl⟩ := authenticate_eq_ok hauth
    exact .quiet (.of_eq rfl) (.of_eq rfl)
  | logout principal =>
    simp only [perform, logout, pure_eq_ok, Prod.mk.injEq] at h
    obtain ⟨rfl, rfl⟩ := h
    split
    · exact .quiet (.of_eq rfl) (.of_eq rfl)
    · rename_i hash _
      exact .quiet (.of_eq rfl) (sessions_deleteWhere (fun key _ => key = hash) rfl)
  | createApiKey principal name =>
    simp only [perform, createApiKey, bind_eq_ok, failIf_eq_ok, exists_const, found_eq_ok,
      pure_eq_ok, Prod.mk.injEq] at h
    obtain ⟨_, ⟨-, _, -, rfl⟩, rfl, rfl⟩ := h
    exact .quiet (.of_eq rfl) (.of_eq rfl)
  | revokeApiKey principal id =>
    simp only [perform, revokeApiKey, bind_eq_ok, found_eq_ok, pure_eq_ok, Prod.mk.injEq] at h
    obtain ⟨_, ⟨_, -, rfl⟩, rfl, rfl⟩ := h
    exact .quiet (.of_eq rfl) (.of_eq rfl)
  | deletePasskey principal id =>
    simp only [perform, deletePasskey, bind_eq_ok, failIf_eq_ok, exists_const, pure_eq_ok,
      Prod.mk.injEq] at h
    obtain ⟨_, ⟨-, -, -, -, rfl⟩, rfl, rfl⟩ := h
    exact .quiet (.of_eq rfl) (.of_eq rfl)
  | createUser principal username role limit =>
    simp only [perform, bind_eq_ok, pure_eq_ok, Prod.mk.injEq] at h
    obtain ⟨s₁, hcreate, rfl, rfl⟩ := h
    obtain ⟨-, hissue⟩ := createUser_eq_ok hcreate
    obtain ⟨_, heq⟩ := issueOnboarding_eq_ok hissue
    have hflows := flows_issueOnboarding hissue
    exact .quiet hflows (.of_eq (by rw [heq]))
  | createUserFlow principal id purpose =>
    simp only [perform, createUserFlow, bind_eq_ok, failIf_eq_ok, exists_const, found_eq_ok,
      pure_eq_ok, Prod.mk.injEq] at h
    obtain ⟨s₁, ⟨_, -, _, -, -, hissue⟩, rfl, rfl⟩ := h
    obtain ⟨_, heq⟩ := issueOnboarding_eq_ok hissue
    exact .quiet (flows_issueOnboarding hissue) (.of_eq (by rw [heq]))
  | adminInit username =>
    simp only [perform, bind_eq_ok, pure_eq_ok, Prod.mk.injEq] at h
    obtain ⟨s₁, hinit, rfl, rfl⟩ := h
    obtain ⟨-, hissue⟩ := adminInit_eq_ok hinit
    obtain ⟨_, heq⟩ := issueOnboarding_eq_ok hissue
    have hflows := flows_issueOnboarding hissue
    exact .quiet hflows (.of_eq (by rw [heq]))
  | adminRecover username =>
    simp only [perform, adminRecover, bind_eq_ok, failIf_eq_ok, exists_const, found_eq_ok,
      pure_eq_ok, Prod.mk.injEq, Prod.exists] at h
    obtain ⟨s₁, ⟨_, _, -, -, hissue⟩, rfl, rfl⟩ := h
    obtain ⟨_, heq⟩ := issueOnboarding_eq_ok hissue
    exact .quiet (flows_issueOnboarding hissue) (.of_eq (by rw [heq]))
  | cleanExpired =>
    simp only [perform, pure_eq_ok, Prod.mk.injEq] at h
    obtain ⟨rfl, rfl⟩ := h
    refine .quiet (fun id flow' hflow => ?_)
      (sessions_deleteWhere (fun _ session => session.expiresAt ≤ now) rfl)
    simp only [cleanExpired, Table.get?_deleteWhere, Option.filter_eq_some_iff] at hflow
    exact .inr ⟨flow', hflow.1, rfl, fun h => h⟩
  | panel db =>
    simp only [perform, pure_eq_ok, Prod.mk.injEq] at h
    obtain ⟨rfl, rfl⟩ := h
    exact .quiet (.of_eq rfl) (.of_eq rfl)

/-! ## Before a wait -/

/-- Two databases that differ in the rate limits. -/
def SameButLimits (s s' : Accounts) : Prop := ∃ rateLimits, s' = { s with rateLimits }

theorem SameButLimits.refl (s : Accounts) : SameButLimits s s := ⟨s.rateLimits, rfl⟩

theorem SameButLimits.trans {s₁ s₂ s₃ : Accounts} (h : SameButLimits s₁ s₂)
    (h' : SameButLimits s₂ s₃) : SameButLimits s₁ s₃ := by
  obtain ⟨_, rfl⟩ := h
  obtain ⟨_, rfl⟩ := h'
  exact ⟨_, rfl⟩

theorem consumeRateLimit_frame {key : String} {limit windowMs : Int}
    (h : consumeRateLimit key limit windowMs now s = .ok s') : SameButLimits s s' := by
  unfold consumeRateLimit at h
  dsimp only at h
  split at h
  · simp only [pure_eq_ok] at h
    exact ⟨_, h.symm⟩
  · split_ifs at h
    · simp only [pure_eq_ok] at h
      exact ⟨_, h.symm⟩
    · simp only [bind_eq_ok, failIf_eq_ok, exists_const, pure_eq_ok] at h
      exact ⟨_, h.2.symm⟩

section Segments

variable {key : String} {limit windowMs : Int} {rest : Accounts → Segment} {held : Held}

theorem limited_frame (h : ∀ s, SameButLimits s (rest s).1) :
    SameButLimits s (limited key limit windowMs now rest s).1 := by
  unfold limited
  split
  · exact .refl s
  · rename_i s₁ hconsume
    exact (consumeRateLimit_frame hconsume).trans (h s₁)

theorem proceed_frame {α : Type} {x : Except PanelError α} {rest : α → Accounts → Segment}
    (h : ∀ a s, SameButLimits s (rest a s).1) : SameButLimits s (proceed x rest s).1 := by
  unfold proceed
  split
  · exact .refl s
  · exact h _ s

theorem limited_eq_ok (h : (limited key limit windowMs now rest s).2 = .ok held) :
    ∃ s₁, SameButLimits s s₁ ∧ (rest s₁).2 = .ok held := by
  unfold limited at h
  split at h
  · cases h
  · rename_i s₁ hconsume
    exact ⟨s₁, consumeRateLimit_frame hconsume, h⟩

theorem proceed_eq_ok {α : Type} {x : Except PanelError α} {rest : α → Accounts → Segment}
    (h : (proceed x rest s).2 = .ok held) : ∃ a, x = .ok a ∧ (rest a s).2 = .ok held := by
  unfold proceed at h
  split at h
  · cases h
  · exact ⟨_, rfl, h⟩

end Segments

/-- A check writes rate limits only. -/
theorem check_frame (call : Call) (now : Int) (s : Accounts) :
    SameButLimits s (check call now s).1 := by
  cases call with
  | setupAdministrator username =>
    exact proceed_frame fun _ s => limited_frame fun s => .refl s
  | passwordLogin username =>
    exact limited_frame fun s => limited_frame fun s => .refl s
  | reauthenticatePassword principal =>
    exact proceed_frame fun _ s => limited_frame fun s => proceed_frame fun _ s => .refl s
  | changePassword principal => exact proceed_frame fun _ s => .refl s
  | authenticationOptions reauth principal =>
    exact proceed_frame fun _ s => limited_frame fun s => .refl s
  | authenticationVerify flowId responseId principal =>
    exact proceed_frame fun _ s => limited_frame fun s => proceed_frame fun _ s => .refl s
  | newPasskeyOptions principal => exact proceed_frame fun _ s => .refl s
  | newPasskeyVerify principal flowId name => exact proceed_frame fun _ s => .refl s
  | onboardingOptions purpose token =>
    exact limited_frame fun s => proceed_frame fun _ s => .refl s
  | onboardingComplete purpose token flowId passkey =>
    exact proceed_frame fun _ s => limited_frame fun s => .refl s

/-- What a held call has read: the password of a login and the passkey of an answer, as they were
at the check. -/
def Held.ReadAt (s : Accounts) : Held → Prop
  | .passwordLogin _ user credential => credential = user.bind fun user => s.passwords.get? user.1
  | .authenticationVerify _ _ keyId key _ => s.passkeys.get? keyId = some key
  | _ => True

theorem Held.ReadAt.of_limits {held : Held} (h : SameButLimits s s') (hread : held.ReadAt s') :
    held.ReadAt s := by
  obtain ⟨_, rfl⟩ := h
  cases held <;> exact hread

theorem check_reads {call : Call} {held : Held} (h : (check call now s).2 = .ok held) :
    held.ReadAt s := by
  cases call with
  | setupAdministrator username =>
    obtain ⟨_, -, h⟩ := proceed_eq_ok h
    obtain ⟨s₁, -, h⟩ := limited_eq_ok h
    cases h
    trivial
  | passwordLogin username =>
    obtain ⟨s₁, hsame₁, h⟩ := limited_eq_ok h
    obtain ⟨s₂, hsame₂, h⟩ := limited_eq_ok h
    cases h
    apply Held.ReadAt.of_limits (hsame₁.trans hsame₂)
    rfl
  | reauthenticatePassword principal =>
    obtain ⟨_, -, h⟩ := proceed_eq_ok h
    obtain ⟨s₁, -, h⟩ := limited_eq_ok h
    obtain ⟨_, -, h⟩ := proceed_eq_ok h
    cases h
    trivial
  | changePassword principal =>
    obtain ⟨_, -, h⟩ := proceed_eq_ok h
    cases h
    trivial
  | authenticationOptions reauth principal =>
    obtain ⟨_, -, h⟩ := proceed_eq_ok h
    obtain ⟨s₁, -, h⟩ := limited_eq_ok h
    cases h
    trivial
  | authenticationVerify flowId responseId principal =>
    obtain ⟨flow, -, h⟩ := proceed_eq_ok h
    obtain ⟨s₁, hsame, h⟩ := limited_eq_ok h
    obtain ⟨key, hkey, h⟩ := proceed_eq_ok h
    cases h
    apply Held.ReadAt.of_limits hsame
    simp only [loginKey, bind_eq_ok, found_eq_ok, failIf_eq_ok, exists_const, pure_eq_ok] at hkey
    obtain ⟨row, hrow, user, -, -, rfl⟩ := hkey
    exact hrow
  | newPasskeyOptions principal =>
    obtain ⟨_, -, h⟩ := proceed_eq_ok h
    cases h
    trivial
  | newPasskeyVerify principal flowId name =>
    obtain ⟨_, -, h⟩ := proceed_eq_ok h
    cases h
    trivial
  | onboardingOptions purpose token =>
    obtain ⟨s₁, -, h⟩ := limited_eq_ok h
    obtain ⟨_, -, h⟩ := proceed_eq_ok h
    cases h
    trivial
  | onboardingComplete purpose token flowId passkey =>
    obtain ⟨_, -, h⟩ := proceed_eq_ok h
    obtain ⟨s₁, -, h⟩ := limited_eq_ok h
    cases h
    trivial

end Bifurcation.Panel.Identity
