import Bifurcation.Panel.Policy

/-!
# Accounts and logins

`identity/service.ts`, `identity/webauthn.ts`, `identity/setup.ts`, `users/service.ts` and
`scripts/admin.ts`. An asynchronous call is two synchronous segments around the hashing of a
password or the verification of a passkey: `check` is the first, and what it holds across the
wait is a `Held`; `commit` is the second, given the `Answer` of the wait. A synchronous call is
one segment, `perform`. A segment is given the time and the ids and tokens it draws.

**Transactions.** A transaction that throws writes nothing. A rate limit is consumed by a
transaction of its own, so a check that throws may have written one.

**Hashes.** Argon2 and the WebAuthn library are outside: what they answer is data of the run.
-/

namespace Bifurcation.Panel.Identity

/-! ## Tables -/

inductive Role where
  | admin
  | user
deriving DecidableEq

/-- A row of `users`. -/
structure AccountRow where
  username : String
  role : Role
  status : UserStatus
  monthlyLimitBytes : Option Int
  version : Int := 1
  createdAt : Int
deriving DecidableEq

structure PasswordRow where
  hash : String
  changedAt : Int
deriving DecidableEq

structure SessionRow where
  userId : String
  expiresAt : Int
  reauthAt : Int
deriving DecidableEq

structure ApiKeyRow where
  userId : String
  name : String
  tokenHash : String
  createdAt : Int
  lastUsedAt : Option Int := none
  revokedAt : Option Int := none
deriving DecidableEq

structure PasskeyRow where
  userId : String
  name : String
  publicKey : String
  counter : Int
  transports : String
  deviceType : String
  backedUp : Bool
  createdAt : Int
deriving DecidableEq

inductive FlowPurpose where
  | activation
  | recovery
  | login
  | register
  | reauth
deriving DecidableEq

/-- A row of `auth_flows`. -/
structure FlowRow where
  purpose : FlowPurpose
  userId : Option String
  tokenHash : Option String := none
  challenge : Option String := none
  sessionHash : Option String := none
  expiresAt : Int
  consumedAt : Option Int := none
deriving DecidableEq

structure RateLimitRow where
  attempts : Int
  resetsAt : Int
deriving DecidableEq

structure Accounts where
  users : Table String AccountRow
  passwords : Table String PasswordRow
  sessions : Table String SessionRow
  apiKeys : Table String ApiKeyRow
  passkeys : Table String PasskeyRow
  authFlows : Table String FlowRow
  rateLimits : Table String RateLimitRow
  /-- The other tables. Their copy of the accounts is written when the policy is refreshed. -/
  panel : Database
deriving DecidableEq

def Accounts.empty (panel : Database) : Accounts where
  users := .empty
  passwords := .empty
  sessions := .empty
  apiKeys := .empty
  passkeys := .empty
  authFlows := .empty
  rateLimits := .empty
  panel

/-! ## Data of a segment -/

/-- The ids and tokens a segment draws. -/
structure Draw where
  userId : String
  flowId : String
  token : String
  /-- The ciphertexts of the proxy identities that a refresh creates. -/
  secrets : String → String

inductive Authentication where
  | session
  | apiKey
deriving DecidableEq

structure Principal where
  userId : String
  user : AccountRow
  authentication : Authentication
  sessionHash : Option String := none
  recentAuthentication : Bool
deriving DecidableEq

/-- What a committed segment has done. -/
inductive Done where
  | quiet
  | setup (userId session : String)
  | passwordLogin (userId session : String)
  | reauthenticated (userId : String)
  | passwordChanged (userId : String)
  | passkeyLogin (flowId keyId userId session : String)
  | passkeyReauth (flowId keyId userId : String)
  | passkeyAdded (flowId userId : String)
  | onboarded (purpose : FlowPurpose) (flowId userId session : String)
  | disabled (userId : String)
deriving DecidableEq

abbrev Result := Except PanelError (Done × Accounts)

def recentTtl : Int := 10 * 60 * 1000

def sessionTtl : Int := 30 * 24 * 60 * 60 * 1000

def invalidFlow : PanelError := .app "INVALID_FLOW" "验证已失效，请重新开始" 400

def invalidCredentials (message : String) : PanelError := .app "INVALID_CREDENTIALS" message 401

/-! ## The policy -/

/-- The accounts as `policy.ts` reads them. -/
def Accounts.policyUsers (s : Accounts) : Table String UserRow where
  rows := s.users.rows.map fun x => (x.1, ⟨x.2.status, x.2.monthlyLimitBytes⟩)
  nodup := by simpa [List.map_map, Function.comp_def] using s.users.nodup

/-- `new PolicyStore().refresh()` in the transaction of a call. -/
def refreshPolicy (vault : Vault) (draw : Draw) (now : Int) (s : Accounts) :
    Except PanelError Accounts := do
  let (_, panel) ← refresh vault draw.secrets now { s.panel with users := s.policyUsers }
  return { s with panel }

/-- `initializeUserSecrets` in the transaction of a call. -/
def initializeSecrets (draw : Draw) (userId : String) (s : Accounts) : Accounts :=
  { s with panel := initializeUserSecrets draw.secrets userId s.panel }

/-! ## Principals -/

/-- The credentials in the headers of a request: the token of a `Bearer` header, which may not
match its pattern, or the session cookie. -/
inductive Headers where
  | bearer (token : Option String)
  | cookie (token : Option String)

def authenticate (headers : Headers) (now : Int) (s : Accounts) :
    Except PanelError (Principal × Accounts) :=
  match headers with
  | .bearer token => do
    let invalid : PanelError := .app "UNAUTHENTICATED" "API Key 无效" 401
    let token ← found invalid token
    let (keyId, key) ← found invalid (s.apiKeys.rows.find? fun x =>
      x.2.tokenHash = tokenHash token && x.2.revokedAt.isNone)
    let user ← found invalid (s.users.get? key.userId)
    failIf (user.status ≠ .active) invalid
    return (⟨key.userId, user, .apiKey, none, false⟩,
      { s with apiKeys := s.apiKeys.set keyId { key with lastUsedAt := some now } })
  | .cookie token => do
    let token ← found (.app "UNAUTHENTICATED" "请先登录" 401) token
    let invalid : PanelError := .app "UNAUTHENTICATED" "登录已失效" 401
    let session ← found invalid (s.sessions.get? (tokenHash token))
    let user ← found invalid (s.users.get? session.userId)
    failIf (session.expiresAt ≤ now ∨ user.status ≠ .active) invalid
    return (⟨session.userId, user, .session, some (tokenHash token),
      decide (now < session.reauthAt + recentTtl)⟩, s)

def requireAdmin (principal : Principal) (s : Accounts) : Except PanelError Unit := do
  let forbidden : PanelError := .app "FORBIDDEN" "需要管理员权限" 403
  let current ← found forbidden (s.users.get? principal.userId)
  failIf (current.status ≠ .active ∨ current.role ≠ .admin) forbidden

def requireRecentSession (principal : Principal) : Except PanelError Unit := do
  failIf (principal.authentication ≠ .session) (.app "SESSION_REQUIRED" "此操作需要网页登录" 403)
  failIf (principal.recentAuthentication = false) (.app "REAUTH_REQUIRED" "请重新验证身份" 403)

/-- The session of a principal. -/
def sessionOf (principal : Principal) (s : Accounts) : Option SessionRow :=
  principal.sessionHash.bind s.sessions.get?

def assertSession (principal : Principal) (now : Int) (s : Accounts) : Except PanelError Unit := do
  requireRecentSession principal
  let session ← found invalidFlow (sessionOf principal s)
  failIf (session.expiresAt ≤ now ∨ session.reauthAt + recentTtl ≤ now) invalidFlow

def issueSession (token userId : String) (now : Int) (s : Accounts) :
    Except PanelError Accounts := do
  let sessions ← found .constraint (s.sessions.insert? (tokenHash token)
    { userId, expiresAt := now + sessionTtl, reauthAt := now })
  return { s with sessions }

/-! ## Rate limits -/

def rateLimitWindow : Int := 15 * 60 * 1000

def consumeRateLimit (key : String) (limit windowMs now : Int) (s : Accounts) :
    Except PanelError Accounts := do
  let first : Accounts :=
    { s with rateLimits := s.rateLimits.set key { attempts := 1, resetsAt := now + windowMs } }
  match s.rateLimits.get? key with
  | none => return first
  | some existing =>
    if existing.resetsAt ≤ now then return first
    else
      failIf (existing.attempts ≥ limit) (.app "RATE_LIMITED" "尝试次数过多，请稍后重试" 429)
      return { s with
        rateLimits := s.rateLimits.set key { existing with attempts := existing.attempts + 1 } }

/-! ## Flows -/

def loadFlow (id : String) (now : Int) (s : Accounts) : Except PanelError FlowRow := do
  let flow ← found invalidFlow (s.authFlows.get? id)
  failIf (flow.consumedAt ≠ none ∨ flow.expiresAt ≤ now) invalidFlow
  return flow

/-- Set `consumed_at` on the flows a condition selects, where it is null. -/
def consumeFlows (p : String → FlowRow → Bool) (now : Int) (s : Accounts) : Accounts :=
  { s with
    authFlows := s.authFlows.updateWhere (fun id flow => p id flow && flow.consumedAt.isNone)
      fun flow => { flow with consumedAt := some now } }

def consumeFlow (id : String) (now : Int) (s : Accounts) : Except PanelError Accounts := do
  failIf ((s.authFlows.get? id).all fun flow => flow.consumedAt.isSome) invalidFlow
  return consumeFlows (fun id' _ => id' = id) now s

/-- Insert a row of `auth_flows`. Its id and its token hash must be new. -/
def insertFlow (id : String) (flow : FlowRow) (s : Accounts) : Except PanelError Accounts := do
  failIf (flow.tokenHash.isSome ∧ s.authFlows.rows.any fun x => x.2.tokenHash = flow.tokenHash)
    .constraint
  let authFlows ← found .constraint (s.authFlows.insert? id flow)
  return { s with authFlows }

inductive Onboarding where
  | activation
  | recovery
deriving DecidableEq

def Onboarding.purpose : Onboarding → FlowPurpose
  | .activation => .activation
  | .recovery => .recovery

/-- The status an account must have for a flow. -/
def Onboarding.requires : Onboarding → UserStatus
  | .activation => .pending
  | .recovery => .active

/-- `issueOnboarding`: the flows of the purpose that are open are closed, and one is issued. -/
def issueOnboarding (userId : String) (purpose : Onboarding) (draw : Draw) (now : Int)
    (s : Accounts) : Except PanelError Accounts :=
  insertFlow draw.flowId
    { purpose := purpose.purpose
      userId := some userId
      tokenHash := some (tokenHash draw.token)
      expiresAt := now + 24 * 60 * 60 * 1000 }
    (consumeFlows (fun _ flow => flow.userId = some userId && flow.purpose = purpose.purpose)
      now s)

/-- The flow a token opens, and the account it is for. -/
structure OnboardingFlow where
  flowId : String
  flow : FlowRow
  userId : String
  user : AccountRow
deriving DecidableEq

def onboardingFlow (token : String) (purpose : Onboarding) (now : Int) (s : Accounts) :
    Except PanelError OnboardingFlow := do
  let (flowId, flow) ← found invalidFlow
    (s.authFlows.rows.find? fun x => x.2.tokenHash = some (tokenHash token))
  failIf (flow.purpose ≠ purpose.purpose) invalidFlow
  let userId ← found invalidFlow flow.userId
  let _ ← loadFlow flowId now s
  let user ← found invalidFlow (s.users.get? userId)
  failIf (user.status ≠ purpose.requires) invalidFlow
  return ⟨flowId, flow, userId, user⟩

/-! ## Before the wait -/

inductive Call where
  | setupAdministrator (username : String)
  | passwordLogin (username : String)
  | reauthenticatePassword (principal : Principal)
  | changePassword (principal : Principal)
  | authenticationOptions (reauth : Bool) (principal : Option Principal)
  | authenticationVerify (flowId responseId : String) (principal : Option Principal)
  | newPasskeyOptions (principal : Principal)
  | newPasskeyVerify (principal : Principal) (flowId name : String)
  | onboardingOptions (purpose : Onboarding) (token : String)
  /-- Without the name of a passkey, `passwordOnly`. -/
  | onboardingComplete (purpose : Onboarding) (token flowId : String) (passkey : Option String)

/-- What a call holds across its wait. -/
inductive Held where
  | setupAdministrator (username : String)
  | passwordLogin (username : String) (user : Option (String × AccountRow))
      (credential : Option PasswordRow)
  | reauthenticatePassword (principal : Principal)
  | changePassword (principal : Principal)
  | authenticationOptions (reauth : Bool) (principal : Option Principal)
  | authenticationVerify (flowId : String) (flow : FlowRow) (keyId : String) (key : PasskeyRow)
      (principal : Option Principal)
  | newPasskeyOptions (principal : Principal)
  | newPasskeyVerify (principal : Principal) (flowId name : String)
  | onboardingOptions (flowId : String)
  | onboardingComplete (purpose : Onboarding) (token : String) (opened : OnboardingFlow)
      (passkey : Option String)

/-- A segment that may write before it throws. -/
abbrev Segment := Accounts × Except PanelError Held

/-- Continue with a value, or throw. -/
def proceed {α : Type} (x : Except PanelError α) (rest : α → Accounts → Segment) (s : Accounts) :
    Segment :=
  match x with
  | .error e => (s, .error e)
  | .ok a => rest a s

/-- Consume a rate limit, then continue. -/
def limited (key : String) (limit windowMs now : Int) (rest : Accounts → Segment) (s : Accounts) :
    Segment :=
  match consumeRateLimit key limit windowMs now s with
  | .error e => (s, .error e)
  | .ok s => rest s

def needsSetup (s : Accounts) : Bool := s.users.rows = []

def requireSetup (s : Accounts) : Except PanelError Unit :=
  failIf (needsSetup s = false) (.app "SETUP_COMPLETE" "初始化已完成，请登录。" 409)

/-- `!flow.challenge`. -/
def FlowRow.unchallenged (flow : FlowRow) : Bool := flow.challenge.all fun text => text = ""

/-- The checks of `authenticationVerify` on its flow. -/
def loginFlow (flowId : String) (principal : Option Principal) (now : Int) (s : Accounts) :
    Except PanelError FlowRow := do
  let flow ← loadFlow flowId now s
  failIf (flow.unchallenged ∨ (flow.purpose ≠ .login ∧ flow.purpose ≠ .reauth)) invalidFlow
  failIf (flow.purpose = .reauth ∧ principal.all fun principal =>
    principal.sessionHash.isNone || flow.sessionHash ≠ principal.sessionHash ||
      flow.userId ≠ some principal.userId) invalidFlow
  return flow

/-- The passkey that answers a flow. -/
def loginKey (flow : FlowRow) (responseId : String) (s : Accounts) :
    Except PanelError PasskeyRow := do
  let key ← found invalidFlow (s.passkeys.get? responseId)
  let user ← found invalidFlow (s.users.get? key.userId)
  failIf (user.status ≠ .active ∨ flow.userId.any fun userId => userId ≠ key.userId) invalidFlow
  return key

/-- The segment before the wait. -/
def check (call : Call) (now : Int) (s : Accounts) : Segment :=
  match call with
  | .setupAdministrator username =>
    proceed (requireSetup s) (fun _ => limited "setup" 15 rateLimitWindow now fun s =>
      (s, .ok (.setupAdministrator username))) s
  | .passwordLogin username =>
    limited "password:global" 60 60000 now (limited ("password:" ++ username) 8 rateLimitWindow now
      fun s =>
        let user := s.users.rows.find? fun x => x.2.username = username
        let credential := user.bind fun user => s.passwords.get? user.1
        (s, .ok (.passwordLogin username user credential))) s
  | .reauthenticatePassword principal =>
    proceed (failIf principal.sessionHash.isNone (.app "SESSION_REQUIRED" "需要网页登录" 403))
      (fun _ => limited ("reauth:" ++ principal.userId) 8 rateLimitWindow now fun s =>
        proceed (found (invalidCredentials "密码不正确") (s.passwords.get? principal.userId))
          (fun _ s => (s, .ok (.reauthenticatePassword principal))) s) s
  | .changePassword principal =>
    proceed (requireRecentSession principal) (fun _ s => (s, .ok (.changePassword principal))) s
  | .authenticationOptions reauth principal =>
    proceed (failIf (reauth = true ∧ (principal.bind Principal.sessionHash).isNone)
        (.app "SESSION_REQUIRED" "请先登录" 401))
      (fun _ => limited
        (if reauth then "webauthn-options:" ++ (principal.elim "" Principal.userId)
          else "webauthn-options") 60 60000 now
        fun s => (s, .ok (.authenticationOptions reauth principal))) s
  | .authenticationVerify flowId responseId principal =>
    proceed (loginFlow flowId principal now s)
      (fun flow => limited ("webauthn-verify:" ++ responseId) 8 rateLimitWindow now fun s =>
        proceed (loginKey flow responseId s)
          (fun key s => (s, .ok (.authenticationVerify flowId flow responseId key principal))) s) s
  | .newPasskeyOptions principal =>
    proceed (assertSession principal now s) (fun _ s => (s, .ok (.newPasskeyOptions principal))) s
  | .newPasskeyVerify principal flowId name =>
    proceed (do
        assertSession principal now s
        let flow ← loadFlow flowId now s
        failIf (flow.purpose ≠ .register ∨ flow.userId ≠ some principal.userId ∨
          flow.sessionHash ≠ principal.sessionHash ∨ flow.unchallenged) invalidFlow)
      (fun _ s => (s, .ok (.newPasskeyVerify principal flowId name))) s
  | .onboardingOptions purpose token =>
    limited ("onboarding:" ++ tokenHash token) 15 rateLimitWindow now (fun s =>
      proceed (onboardingFlow token purpose now s)
        (fun opened s => (s, .ok (.onboardingOptions opened.flowId))) s) s
  | .onboardingComplete purpose token flowId passkey =>
    proceed (do
        let opened ← onboardingFlow token purpose now s
        failIf (opened.flowId ≠ flowId ∨ opened.flow.unchallenged) invalidFlow
        return opened)
      (fun opened => limited ("onboarding-complete:" ++ tokenHash token) 15 rateLimitWindow now
        fun s => (s, .ok (.onboardingComplete purpose token opened passkey))) s

/-! ## After the wait -/

structure Verification where
  newCounter : Int
  credentialBackedUp : Bool

structure Registration where
  credentialId : String
  publicKey : String
  counter : Int
  transports : String
  deviceType : String
  backedUp : Bool

/-- What was waited for. `none` stands for a verification that failed. -/
structure Answer where
  hash : String
  valid : Bool
  challenge : String
  verification : Option Verification
  registration : Option Registration

def invalidPasskey (message : String) : PanelError := .app "INVALID_PASSKEY" message 400

def insertPasskey (userId name : String) (info : Registration) (now : Int) (s : Accounts) :
    Except PanelError Accounts := do
  failIf (s.passkeys.get? info.credentialId).isSome
    (.app "PASSKEY_EXISTS" "此 Passkey 已绑定账号" 409)
  let row : PasskeyRow :=
    { userId, name, publicKey := info.publicKey, counter := info.counter,
      transports := info.transports, deviceType := info.deviceType, backedUp := info.backedUp,
      createdAt := now }
  return { s with passkeys := s.passkeys.set info.credentialId row }

def setupCommit (vault : Vault) (username hash : String) (draw : Draw) (now : Int) (s : Accounts) :
    Result := do
  requireSetup s
  let users ← found .constraint (s.users.insert? draw.userId
    { username, role := .admin, status := .active, monthlyLimitBytes := none, createdAt := now })
  let passwords ← found .constraint (s.passwords.insert? draw.userId { hash, changedAt := now })
  let s := initializeSecrets draw draw.userId { s with users, passwords }
  let s ← refreshPolicy vault draw now s
  let s ← issueSession draw.token draw.userId now s
  return (.setup draw.userId (tokenHash draw.token), s)

def passwordLoginCommit (username : String) (user : Option (String × AccountRow))
    (credential : Option PasswordRow) (valid : Bool) (draw : Draw) (now : Int) (s : Accounts) :
    Result := do
  failIf (valid = false) (invalidCredentials "用户名或密码不正确")
  let (userId, user) ← found (invalidCredentials "用户名或密码不正确") user
  let credential ← found (invalidCredentials "用户名或密码不正确") credential
  failIf (user.status ≠ .active) (invalidCredentials "用户名或密码不正确")
  let fresh ← found (invalidCredentials "登录凭据已改变") (s.users.get? userId)
  failIf (fresh.status ≠ .active ∨ (s.passwords.get? userId).map PasswordRow.hash ≠
    some credential.hash) (invalidCredentials "登录凭据已改变")
  let s := { s with rateLimits := s.rateLimits.deleteWhere fun key _ =>
    key = "password:" ++ username }
  let s ← issueSession draw.token userId now s
  return (.passwordLogin userId (tokenHash draw.token), s)

def reauthenticateCommit (principal : Principal) (valid : Bool) (now : Int) (s : Accounts) :
    Result := do
  failIf (valid = false) (invalidCredentials "密码不正确")
  let hash ← found (.app "SESSION_REQUIRED" "需要网页登录" 403) principal.sessionHash
  let session ← found (.app "UNAUTHENTICATED" "登录已失效" 401)
    ((s.sessions.get? hash).filter fun session => session.userId = principal.userId)
  return (.reauthenticated principal.userId,
    { s with sessions := s.sessions.set hash { session with reauthAt := now } })

def changePasswordCommit (principal : Principal) (hash : String) (now : Int) (s : Accounts) :
    Result := do
  let session ← found (.app "REAUTH_REQUIRED" "请重新验证身份" 403) (sessionOf principal s)
  failIf (session.reauthAt + recentTtl ≤ now) (.app "REAUTH_REQUIRED" "请重新验证身份" 403)
  return (.passwordChanged principal.userId,
    { s with
      passwords := s.passwords.updateWhere (fun userId _ => userId = principal.userId)
        fun _ => { hash, changedAt := now }
      sessions := s.sessions.deleteWhere fun _ session => session.userId = principal.userId })

def authenticationOptionsCommit (reauth : Bool) (principal : Option Principal)
    (challenge : String) (draw : Draw) (now : Int) (s : Accounts) : Result := do
  let flow : FlowRow :=
    { purpose := if reauth then .reauth else .login
      userId := if reauth then principal.map Principal.userId else none
      sessionHash := if reauth then principal.bind Principal.sessionHash else none
      challenge := some challenge
      expiresAt := now + 5 * 60000 }
  let s ← insertFlow draw.flowId flow s
  return (.quiet, s)

def authenticationVerifyCommit (flowId : String) (flow : FlowRow) (keyId : String)
    (key : PasskeyRow) (principal : Option Principal) (verification : Option Verification)
    (draw : Draw) (now : Int) (s : Accounts) : Result := do
  let verification ← found (invalidPasskey "Passkey 验证失败") verification
  let _ ← loadFlow flowId now s
  let fresh ← found invalidFlow (s.users.get? key.userId)
  let freshKey ← found invalidFlow (s.passkeys.get? keyId)
  failIf (fresh.status ≠ .active ∨ freshKey.counter ≠ key.counter ∨
    freshKey.publicKey ≠ key.publicKey ∨ freshKey.userId ≠ key.userId) invalidFlow
  let s ← consumeFlow flowId now s
  let s := { s with
    passkeys := s.passkeys.set keyId { freshKey with
      counter := verification.newCounter, backedUp := verification.credentialBackedUp } }
  if flow.purpose = .reauth then
    let hash ← found invalidFlow (principal.bind Principal.sessionHash)
    let session ← found invalidFlow (s.sessions.get? hash)
    return (.passkeyReauth flowId keyId key.userId,
      { s with sessions := s.sessions.set hash { session with reauthAt := now } })
  else
    let s ← issueSession draw.token key.userId now s
    return (.passkeyLogin flowId keyId key.userId (tokenHash draw.token), s)

def newPasskeyOptionsCommit (principal : Principal) (challenge : String) (draw : Draw) (now : Int)
    (s : Accounts) : Result := do
  let s ← insertFlow draw.flowId
    { purpose := .register
      userId := some principal.userId
      sessionHash := principal.sessionHash
      challenge := some challenge
      expiresAt := now + 5 * 60000 } s
  return (.quiet, s)

def newPasskeyVerifyCommit (principal : Principal) (flowId name : String)
    (registration : Option Registration) (now : Int) (s : Accounts) : Result := do
  let info ← found (invalidPasskey "Passkey 注册验证失败") registration
  assertSession principal now s
  let _ ← loadFlow flowId now s
  let s ← consumeFlow flowId now s
  let s ← insertPasskey principal.userId name info now s
  return (.passkeyAdded flowId principal.userId, s)

def onboardingOptionsCommit (flowId challenge : String) (s : Accounts) : Result :=
  return (.quiet,
    { s with
      authFlows := s.authFlows.updateWhere (fun id _ => id = flowId)
        fun flow => { flow with challenge := some challenge } })

/-- Insert the passkey of a completion, if it has one. -/
def insertOnboardingKey (userId : String) (passkey : Option String) (info : Option Registration)
    (now : Int) (s : Accounts) : Except PanelError Accounts :=
  match passkey, info with
  | some name, some info => insertPasskey userId name info now s
  | _, _ => return s

def onboardingCompleteCommit (vault : Vault) (purpose : Onboarding) (token : String)
    (opened : OnboardingFlow) (passkey : Option String) (registration : Option Registration)
    (hash : String) (draw : Draw) (now : Int) (s : Accounts) : Result := do
  failIf (passkey.isSome ∧ registration.isNone) (invalidPasskey "Passkey 注册验证失败")
  let current ← onboardingFlow token purpose now s
  failIf (current.flow.challenge ≠ opened.flow.challenge) invalidFlow
  let s ← consumeFlow opened.flowId now s
  let s :=
    if purpose = .recovery then
      { s with
        passkeys := s.passkeys.deleteWhere fun _ key => key.userId = opened.userId
        sessions := s.sessions.deleteWhere fun _ session => session.userId = opened.userId }
    else s
  let s ← insertOnboardingKey opened.userId passkey registration now s
  let s := { s with
    passwords := s.passwords.set opened.userId { hash, changedAt := now }
    users := s.users.updateWhere (fun id _ => id = opened.userId) fun user =>
      { user with status := .active, version := current.user.version + 1 } }
  let s ← refreshPolicy vault draw now (initializeSecrets draw opened.userId s)
  let s := consumeFlows (fun _ flow => flow.userId = some opened.userId) now s
  let s ← issueSession draw.token opened.userId now s
  return (.onboarded purpose.purpose opened.flowId opened.userId (tokenHash draw.token), s)

/-- The segment after the wait. -/
def commit (vault : Vault) (held : Held) (answer : Answer) (draw : Draw) (now : Int)
    (s : Accounts) : Result :=
  match held with
  | .setupAdministrator username => setupCommit vault username answer.hash draw now s
  | .passwordLogin username user credential =>
    passwordLoginCommit username user credential answer.valid draw now s
  | .reauthenticatePassword principal => reauthenticateCommit principal answer.valid now s
  | .changePassword principal => changePasswordCommit principal answer.hash now s
  | .authenticationOptions reauth principal =>
    authenticationOptionsCommit reauth principal answer.challenge draw now s
  | .authenticationVerify flowId flow keyId key principal =>
    authenticationVerifyCommit flowId flow keyId key principal answer.verification draw now s
  | .newPasskeyOptions principal => newPasskeyOptionsCommit principal answer.challenge draw now s
  | .newPasskeyVerify principal flowId name =>
    newPasskeyVerifyCommit principal flowId name answer.registration now s
  | .onboardingOptions flowId => onboardingOptionsCommit flowId answer.challenge s
  | .onboardingComplete purpose token opened passkey =>
    onboardingCompleteCommit vault purpose token opened passkey answer.registration answer.hash
      draw now s

/-! ## Synchronous calls -/

def logout (principal : Principal) (s : Accounts) : Accounts :=
  match principal.sessionHash with
  | none => s
  | some hash => { s with sessions := s.sessions.deleteWhere fun key _ => key = hash }

def createApiKey (principal : Principal) (name : String) (draw : Draw) (now : Int) (s : Accounts) :
    Except PanelError Accounts := do
  let key : ApiKeyRow :=
    { userId := principal.userId, name, tokenHash := tokenHash draw.token, createdAt := now }
  failIf (s.apiKeys.rows.any fun x => x.2.tokenHash = key.tokenHash) .constraint
  let apiKeys ← found .constraint (s.apiKeys.insert? draw.userId key)
  return { s with apiKeys }

def revokeApiKey (principal : Principal) (id : String) (now : Int) (s : Accounts) :
    Except PanelError Accounts := do
  let key ← found (.app "NOT_FOUND" "API Key 不存在" 404)
    ((s.apiKeys.get? id).filter fun key => key.userId = principal.userId)
  return { s with apiKeys := s.apiKeys.set id { key with revokedAt := some now } }

def deletePasskey (principal : Principal) (id : String) (s : Accounts) :
    Except PanelError Accounts := do
  requireRecentSession principal
  let keys := s.passkeys.rows.filter fun x => x.2.userId = principal.userId
  failIf (keys.all fun x => x.1 ≠ id) (.app "NOT_FOUND" "Passkey 不存在" 404)
  failIf (keys.length ≤ 1) (.app "LAST_PASSKEY" "请先添加另一个 Passkey" 409)
  return { s with passkeys := s.passkeys.deleteWhere fun key _ => key = id }

def createUser (principal : Principal) (username : String) (role : Role)
    (monthlyLimitBytes : Option Int) (draw : Draw) (now : Int) (s : Accounts) :
    Except PanelError Accounts := do
  requireAdmin principal s
  failIf (s.users.rows.any fun x => x.2.username = username)
    (.app "USERNAME_EXISTS" "用户名已存在" 409)
  failIf (s.users.rows.length ≥ 10) (.app "USER_LIMIT" "最多支持 10 个账号" 409)
  let users ← found .constraint (s.users.insert? draw.userId
    { username, role, status := .pending, monthlyLimitBytes, createdAt := now })
  issueOnboarding draw.userId .activation draw now { s with users }

/-- The fields of an update. The status can only be set to active or disabled. -/
structure UserChanges where
  expectedVersion : Int
  role : Option Role := none
  /-- Whether the account is to be active. -/
  active : Option Bool := none
  monthlyLimitBytes : Option (Option Int) := none

def UserChanges.status (changes : UserChanges) : Option UserStatus :=
  changes.active.map fun active => if active then .active else .disabled

/-- `{ ...user, ...changes, version: user.version + 1 }`. -/
def UserChanges.apply (changes : UserChanges) (user : AccountRow) : AccountRow :=
  { user with
    role := changes.role.getD user.role
    status := changes.status.getD user.status
    monthlyLimitBytes := changes.monthlyLimitBytes.getD user.monthlyLimitBytes
    version := user.version + 1 }

/-- An administrator who can log in. -/
def AccountRow.administers (user : AccountRow) : Bool := user.role = .admin && user.status = .active

def updateUser (vault : Vault) (principal : Principal) (id : String) (changes : UserChanges)
    (draw : Draw) (now : Int) (s : Accounts) : Result := do
  requireAdmin principal s
  let user ← found (.app "NOT_FOUND" "账号不存在" 404) (s.users.get? id)
  failIf (user.version ≠ changes.expectedVersion)
    (.app "VERSION_CONFLICT" "账号已更新，请刷新后重试" 409)
  failIf (changes.status = some .active ∧ (s.passwords.get? id).isNone)
    (.app "ACTIVATION_REQUIRED" "账号需要先完成激活" 409)
  failIf (user.administers = true ∧
      (changes.role = some .user ∨ changes.status = some .disabled) ∧
      (s.users.rows.filter fun x => x.2.administers).length ≤ 1)
    (.app "LAST_ADMIN" "不能禁用或降级最后一个启用的管理员" 409)
  let s := { s with users := s.users.set id (changes.apply user) }
  let s :=
    if changes.status = some .disabled then
      { s with sessions := s.sessions.deleteWhere fun _ session => session.userId = id }
    else s
  let s ← refreshPolicy vault draw now s
  return (if changes.status = some .disabled then .disabled id else .quiet, s)

def createUserFlow (principal : Principal) (id : String) (purpose : Onboarding) (draw : Draw)
    (now : Int) (s : Accounts) : Except PanelError Accounts := do
  requireAdmin principal s
  let user ← found (.app "NOT_FOUND" "账号不存在" 404) (s.users.get? id)
  failIf (user.status ≠ purpose.requires) (.app "INVALID_STATUS" "当前账号状态不支持此操作" 409)
  issueOnboarding id purpose draw now s

/-- `admin:init` of `scripts/admin.ts`. -/
def adminInit (username : String) (draw : Draw) (now : Int) (s : Accounts) :
    Except PanelError Accounts := do
  failIf (needsSetup s = false) .constraint
  let users ← found .constraint (s.users.insert? draw.userId
    { username, role := .admin, status := .pending, monthlyLimitBytes := none, createdAt := now })
  issueOnboarding draw.userId .activation draw now { s with users }

/-- `admin:recover` of `scripts/admin.ts`. -/
def adminRecover (username : String) (draw : Draw) (now : Int) (s : Accounts) :
    Except PanelError Accounts := do
  let (userId, user) ← found .constraint (s.users.rows.find? fun x => x.2.username = username)
  failIf (user.role ≠ .admin ∨ user.status = .disabled) .constraint
  issueOnboarding userId (if user.status = .pending then .activation else .recovery) draw now s

/-- `cleanExpiredIdentityState`. -/
def cleanExpired (now : Int) (s : Accounts) : Accounts :=
  { s with
    authFlows := s.authFlows.deleteWhere fun _ flow => flow.expiresAt ≤ now
    sessions := s.sessions.deleteWhere fun _ session => session.expiresAt ≤ now
    rateLimits := s.rateLimits.deleteWhere fun _ limit => limit.resetsAt ≤ now }

inductive SyncCall where
  | authenticate (headers : Headers)
  | logout (principal : Principal)
  | createApiKey (principal : Principal) (name : String)
  | revokeApiKey (principal : Principal) (id : String)
  | deletePasskey (principal : Principal) (id : String)
  | createUser (principal : Principal) (username : String) (role : Role)
      (monthlyLimitBytes : Option Int)
  | updateUser (principal : Principal) (id : String) (changes : UserChanges)
  | createUserFlow (principal : Principal) (id : String) (purpose : Onboarding)
  | adminInit (username : String)
  | adminRecover (username : String)
  | cleanExpired
  /-- A transaction on the other tables. -/
  | panel (db : Database)

def perform (vault : Vault) (call : SyncCall) (draw : Draw) (now : Int) (s : Accounts) : Result :=
  match call with
  | .authenticate headers => do
    let (_, s) ← authenticate headers now s
    return (.quiet, s)
  | .logout principal => return (.quiet, logout principal s)
  | .createApiKey principal name => do
    let s ← createApiKey principal name draw now s
    return (.quiet, s)
  | .revokeApiKey principal id => do
    let s ← revokeApiKey principal id now s
    return (.quiet, s)
  | .deletePasskey principal id => do
    let s ← deletePasskey principal id s
    return (.quiet, s)
  | .createUser principal username role monthlyLimitBytes => do
    let s ← createUser principal username role monthlyLimitBytes draw now s
    return (.quiet, s)
  | .updateUser principal id changes => updateUser vault principal id changes draw now s
  | .createUserFlow principal id purpose => do
    let s ← createUserFlow principal id purpose draw now s
    return (.quiet, s)
  | .adminInit username => do
    let s ← adminInit username draw now s
    return (.quiet, s)
  | .adminRecover username => do
    let s ← adminRecover username draw now s
    return (.quiet, s)
  | .cleanExpired => return (.quiet, cleanExpired now s)
  | .panel db => return (.quiet, { s with panel := db })

end Bifurcation.Panel.Identity
