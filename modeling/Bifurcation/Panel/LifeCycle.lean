import Bifurcation.Panel.Administration

/-!
# The life cycle of an account

An account is created pending, becomes active when its flow is completed, and is disabled and
enabled by an administrator. The runs here are those of the calls that do this: setup,
`createUser`, `updateUser`, `createUserFlow` and the completion of a flow, with any requests in
flight.

**The way back.** A pending account is sent a new flow, and a disabled one that has a password is
enabled again. An administrator who first sets the limit of the account to zero keeps it out of
the policy, so that not even a policy revision that has reached its end stands in the way.

**The dead end.** `updateUser` also disables a pending account. Without a password it cannot be
enabled, and as it is not pending no flow can be issued or completed for it.

Main results: `revivable_iff` (which accounts an active administrator and their owners can make
active) and `careful_revivable` (all of them, in the runs that disable only accounts with a
password).
-/

namespace Bifurcation.Panel.Identity

variable {vault : Vault} {draw : Draw} {now : Int} {s s' : Accounts} {done : Done}
variable {w w' : World} {e : Event}

/-! ## Runs -/

def Call.lifeCycle : Call → Bool
  | .setupAdministrator _ | .onboardingOptions _ _ | .onboardingComplete _ _ _ _ => true
  | _ => false

def SyncCall.lifeCycle : SyncCall → Bool
  | .createUser _ _ _ _ | .updateUser _ _ _ | .createUserFlow _ _ _ => true
  | _ => false

def Event.lifeCycle : Event → Bool
  | .arrive _ call _ => call.lifeCycle
  | .resume _ _ _ _ => true
  | .perform call _ _ => call.lifeCycle

/-- An event of the life cycle. What it draws is new, and its secrets can be read. -/
structure Allowed (vault : Vault) (w : World) (e : Event) : Prop where
  lifeCycle : e.lifeCycle = true
  fresh : w.Fresh vault e
  reads : ∀ draw result, w.transaction vault e = some (draw, result) →
    vault.ReadsFresh draw.secrets

def Event.time : Event → Int
  | .arrive _ _ now => now
  | .resume _ _ _ now => now
  | .perform _ _ now => now

/-- An event of the life cycle, not before a time. -/
structure AllowedSince (vault : Vault) (since : Int) (w : World) (e : Event) : Prop
    extends Allowed vault w e where
  since : since ≤ e.time

/-- The event disables no account that has no password. -/
def World.Spares (w : World) : Event → Prop
  | .perform (.updateUser _ id changes) _ _ =>
    changes.active = some false → (w.tables.passwords.get? id).isSome
  | _ => True

/-- The worlds that events with a property lead to. -/
inductive Runs (vault : Vault) (P : World → Event → Prop) (w : World) : World → Prop where
  | refl : Runs vault P w w
  | step {w' : World} (e : Event) (h : Runs vault P w w') (hP : P w' e) :
      Runs vault P w (w'.step vault e)

theorem Runs.trans {P : World → Event → Prop} {w₁ w₂ w₃ : World} (h : Runs vault P w₁ w₂)
    (h' : Runs vault P w₂ w₃) : Runs vault P w₁ w₃ := by
  induction h' with
  | refl => exact h
  | step e _ hP ih => exact ih.step e hP

/-- What every event keeps, every run keeps. -/
theorem Runs.induction {P : World → Event → Prop} {I : World → Prop} (h : Runs vault P w w')
    (hw : I w) (hstep : ∀ w e, I w → P w e → I (w.step vault e)) : I w' := by
  induction h with
  | refl => exact hw
  | step e _ hP ih => exact hstep _ e ih hP

theorem Runs.mono {P Q : World → Event → Prop} (hPQ : ∀ w e, P w e → Q w e)
    (h : Runs vault P w w') : Runs vault Q w w' := by
  induction h with
  | refl => exact .refl
  | step e _ hP ih => exact ih.step e (hPQ _ _ hP)

/-- Who makes a call. -/
def SyncCall.principal : SyncCall → Option Principal
  | .createUser principal _ _ _ => some principal
  | .updateUser principal _ _ => some principal
  | .createUserFlow principal _ _ => some principal
  | _ => none

/-- The token of the flow that a call asks for. -/
def Call.token : Call → Option String
  | .onboardingOptions _ token => some token
  | .onboardingComplete _ token _ _ => some token
  | _ => none

/-- The flow that a call waits with. -/
def Held.flowId : Held → Option String
  | .onboardingOptions flowId => some flowId
  | .onboardingComplete _ _ opened _ => some opened.flowId
  | _ => none

/-- A call of an active administrator, or one of the owner of the account, who has the token of a
flow of it. -/
def World.CalledBy (w : World) (id : String) : Event → Prop
  | .perform call _ _ => ∃ principal admin, call.principal = some principal ∧
      w.tables.users.get? principal.userId = some admin ∧ admin.administers = true
  | .arrive _ call _ => ∃ token flowId flow, call.token = some token ∧
      w.tables.authFlows.get? flowId = some flow ∧ flow.userId = some id ∧
      flow.tokenHash = some (tokenHash token)
  | .resume request _ _ _ => ∃ flight flowId flow, w.flights request = some flight ∧
      flight.held.flowId = some flowId ∧ w.tables.authFlows.get? flowId = some flow ∧
      flow.userId = some id

/-- A call of an active administrator or of the owner of an account, not before a time. -/
structure Reviving (vault : Vault) (since : Int) (id : String) (w : World) (e : Event) : Prop
    extends AllowedSince vault since w e where
  called : w.CalledBy id e

/-- From a time on, an active administrator and its owner can make the account active. -/
def Revivable (vault : Vault) (w : World) (since : Int) (id : String) : Prop :=
  ∃ w', Runs vault (Reviving vault since id) w w' ∧
    ∃ user, w'.tables.users.get? id = some user ∧ user.status = .active

/-- From a time on, the account can become active, whoever calls. -/
def Activatable (vault : Vault) (w : World) (since : Int) (id : String) : Prop :=
  ∃ w', Runs vault (AllowedSince vault since) w w' ∧
    ∃ user, w'.tables.users.get? id = some user ∧ user.status = .active

theorem Revivable.activatable {since : Int} {id : String} (h : Revivable vault w since id) :
    Activatable vault w since id := by
  obtain ⟨w', hruns, hactive⟩ := h
  exact ⟨w', hruns.mono fun _ _ he => he.toAllowedSince, hactive⟩

/-- Draws of which none was made before. -/
structure NewDraws (vault : Vault) (w : World) (draws : List Draw) : Prop where
  flowIds : (draws.map Draw.flowId).Nodup
  newFlowIds : ∀ draw ∈ draws, draw.flowId ∉ w.flowIds
  tokens : (draws.map fun draw => tokenHash draw.token).Nodup
  newTokens : ∀ draw ∈ draws, tokenHash draw.token ∉ w.tokens
  reads : ∀ draw ∈ draws, vault.ReadsFresh draw.secrets

/-! ## The policy -/

/-- The tables as `policy.ts` reads them. -/
def Accounts.policyDatabase (s : Accounts) : Database := { s.panel with users := s.policyUsers }

/-- The stored policy is that of the accounts. Nobody has used anything yet. -/
structure Provisioned (vault : Vault) (s : Accounts) : Prop where
  unused : s.panel.usageBuckets.rows = []
  reads : vault.Reads s.panel
  policy : ∀ policy, s.panel.policyState = some policy →
    policy.revision ≤ maxSafeInteger ∧
      policy.fingerprint = fingerprintOf (grants 0 s.policyDatabase)

theorem get?_policyUsers (s : Accounts) (id : String) :
    s.policyUsers.get? id =
      (s.users.get? id).map fun user => ⟨user.status, user.monthlyLimitBytes⟩ := by
  simp only [Table.get?, Accounts.policyUsers, List.find?_map, Option.map_map]
  rfl

theorem usedBytes_unused {db : Database} (h : db.usageBuckets.rows = []) (userId : String)
    (now : Int) : usedBytes userId now db = 0 := by
  simp [usedBytes, Table.sumBy, h]

theorem small_policyDatabase (hunused : s.panel.usageBuckets.rows = []) (now : Int)
    (userId : String) : usedBytes userId now s.policyDatabase ≤ maxInt64 := by
  have hused : usedBytes userId now s.policyDatabase = 0 := usedBytes_unused hunused userId now
  rw [hused]
  decide

theorem fingerprint_nextPolicy (previous : Option PolicyRow) (fingerprint period : String)
    (now : Int) : (nextPolicy previous fingerprint period now).fingerprint = fingerprint := by
  unfold nextPolicy
  cases previous with
  | none => rfl
  | some previous =>
    dsimp only
    by_cases hwritten : previous.fingerprint ≠ fingerprint ∨ previous.period ≠ period
    · rw [if_pos hwritten]
    · rw [if_neg hwritten]
      exact not_not.1 (not_or.1 hwritten).1

/-- An account that is active and below its limit. -/
def Accounts.Granted (s : Accounts) (id : String) : Prop :=
  ∃ user, s.users.get? id = some user ∧ user.status = .active ∧
    ∀ limit, user.monthlyLimitBytes = some limit → 0 < limit

theorem granted_iff (hunused : s.panel.usageBuckets.rows = []) (now : Int) (id : String) :
    (id ∈ activeUsers s.policyDatabase ∧ allowed now s.policyDatabase id = true) ↔
      s.Granted id := by
  have hused : usedBytes id now s.policyDatabase = 0 := usedBytes_unused hunused id now
  have hget : s.policyDatabase.users.get? id = _ := get?_policyUsers s id
  rw [mem_activeUsers, allowed, hget, hused, Accounts.Granted]
  cases huser : s.users.get? id with
  | none => simp
  | some user =>
    simp only [Option.map_some, Option.some.injEq, Option.any_some, Option.all_eq_true,
      decide_eq_true_eq, exists_eq_left']

/-- The same accounts are granted the same generations. -/
theorem grants_eq (hunused : s.panel.usageBuckets.rows = [])
    (hunused' : s'.panel.usageBuckets.rows = []) (hgranted : ∀ id, s'.Granted id ↔ s.Granted id)
    (hgeneration : ∀ id, generationOf id s'.panel = generationOf id s.panel) (now now' : Int) :
    grants now' s'.policyDatabase = grants now s.policyDatabase := by
  refine grants_congr (fun id => ?_) hgeneration
  rw [granted_iff hunused', granted_iff hunused, hgranted]

/-- **A refresh stores the policy of the accounts.** -/
theorem provisioned_refresh (hunused : s.panel.usageBuckets.rows = [])
    (hreads : vault.Reads s.panel) (hfresh : vault.ReadsFresh draw.secrets)
    (h : refreshPolicy vault draw now s = .ok s') : Provisioned vault s' := by
  simp only [refreshPolicy, bind_eq_ok, pure_eq_ok] at h
  obtain ⟨⟨authorization, panel⟩, hrefresh, rfl⟩ := h
  have hsame := refresh_frame hrefresh
  obtain ⟨_, rfl, hrevision, -, -, hstored, hgeneration⟩ := refresh_eq_ok hrefresh
  have hunused' : panel.usageBuckets.rows = [] := by
    rw [hsame.usageBuckets]
    exact hunused
  have hreads₀ : vault.Reads s.policyDatabase := hreads
  obtain ⟨authorization', panel', hrefresh', hreads'⟩ := exists_refresh hreads₀ hfresh
    (small_policyDatabase hunused now) hrevision
  obtain ⟨-, rfl⟩ := Prod.mk.inj (Except.ok.inj (hrefresh.symm.trans hrefresh'))
  refine ⟨hunused', hreads', fun stored hstored' => ?_⟩
  obtain rfl := Option.some.inj (hstored.symm.trans hstored')
  refine ⟨hrevision, ?_⟩
  rw [fingerprint_nextPolicy]
  have hgrants : grants now s.policyDatabase =
      grants 0 (Accounts.policyDatabase { s with panel }) :=
    @grants_eq { s with panel } s hunused' hunused (fun id => Iff.rfl)
      (fun id => (hgeneration id).symm) 0 now
  exact congrArg fingerprintOf hgrants

/-- The revision does not move where the grants do not. -/
theorem revision_nextPolicy {previous : Option PolicyRow} {fingerprint period : String} {now : Int}
    (h : ∀ policy, previous = some policy →
      policy.revision ≤ maxSafeInteger ∧ policy.fingerprint = fingerprint) :
    (nextPolicy previous fingerprint period now).revision ≤ maxSafeInteger := by
  cases previous with
  | none =>
    show (1 : Int) ≤ maxSafeInteger
    decide
  | some policy =>
    obtain ⟨hrevision, hfingerprint⟩ := h policy rfl
    unfold nextPolicy
    simp only [hfingerprint, if_true, add_zero]
    split_ifs
    · exact hrevision
    · exact hrevision

/-- **A refresh that changes no grants succeeds.** -/
theorem exists_refreshPolicy (now : Int) (s' : Accounts) (h : Provisioned vault s)
    (hunused : s'.panel.usageBuckets.rows = [])
    (hreads : vault.Reads s'.panel) (hstate : s'.panel.policyState = s.panel.policyState)
    (hgranted : ∀ id, s'.Granted id ↔ s.Granted id)
    (hgeneration : ∀ id, generationOf id s'.panel = generationOf id s.panel)
    (hfresh : vault.ReadsFresh draw.secrets) :
    ∃ s'', refreshPolicy vault draw now s' = .ok s'' := by
  have hreads' : vault.Reads s'.policyDatabase := hreads
  obtain ⟨authorization, panel, hrefresh, -⟩ := exists_refresh hreads' hfresh
    (small_policyDatabase hunused now) (revision_nextPolicy fun policy hpolicy => by
      obtain ⟨hrevision, hfingerprint⟩ := h.policy policy (hstate.symm.trans hpolicy)
      refine ⟨hrevision, ?_⟩
      rw [hfingerprint, grants_eq h.unused hunused hgranted hgeneration 0 now])
  refine ⟨{ s' with panel }, ?_⟩
  show (refresh vault draw.secrets now s'.policyDatabase >>= _) = _
  rw [hrefresh]
  rfl

/-- The policy is the same where the panel is and the same accounts are granted. -/
theorem Provisioned.of_granted (h : Provisioned vault s) (hpanel : s'.panel = s.panel)
    (hgranted : ∀ id, s'.Granted id ↔ s.Granted id) : Provisioned vault s' where
  unused := by rw [hpanel]; exact h.unused
  reads := by rw [hpanel]; exact h.reads
  policy policy hpolicy := by
    rw [hpanel] at hpolicy
    obtain ⟨hrevision, hfingerprint⟩ := h.policy policy hpolicy
    refine ⟨hrevision, hfingerprint.trans (congrArg fingerprintOf ?_)⟩
    exact (grants_eq h.unused (by rw [hpanel]; exact h.unused) hgranted
      (fun id => by rw [hpanel]) 0 0).symm

/-! ## One transaction -/

/-- What a transaction of the life cycle keeps. -/
structure Kept (vault : Vault) (draw : Draw) (s s' : Accounts) : Prop where
  flows : ∀ id flow', s'.authFlows.get? id = some flow' →
    (id = draw.flowId ∧ flow'.tokenHash = some (tokenHash draw.token)) ∨
      ∃ flow, s.authFlows.get? id = some flow ∧ flow'.userId = flow.userId ∧
        flow'.tokenHash = flow.tokenHash
  sessions : ∀ hash row', s'.sessions.get? hash = some row' →
    hash = tokenHash draw.token ∨ ∃ row, s.sessions.get? hash = some row
  administered : s.users.rows = [] ∨ s.Administered → s'.users.rows = [] ∨ s'.Administered
  provisioned : Provisioned vault s → vault.ReadsFresh draw.secrets → Provisioned vault s'

/-- Flows that are consumed or challenged are the same flows. -/
theorem flows_updateWhere {p : String → FlowRow → Bool} {f : FlowRow → FlowRow}
    {t : Table String FlowRow} {id : String} {flow' : FlowRow}
    (hf : ∀ flow, (f flow).userId = flow.userId ∧ (f flow).tokenHash = flow.tokenHash)
    (h : (t.updateWhere p f).get? id = some flow') :
    ∃ flow, t.get? id = some flow ∧ flow'.userId = flow.userId ∧
      flow'.tokenHash = flow.tokenHash := by
  rw [Table.get?_updateWhere, Option.map_eq_some_iff] at h
  obtain ⟨flow, hflow, rfl⟩ := h
  refine ⟨flow, hflow, ?_⟩
  split_ifs
  · exact hf flow
  · exact ⟨rfl, rfl⟩

theorem flows_consumed {p : String → FlowRow → Bool} {id : String} {flow' : FlowRow}
    (h : (consumeFlows p now s).authFlows.get? id = some flow') :
    ∃ flow, s.authFlows.get? id = some flow ∧ flow'.userId = flow.userId ∧
      flow'.tokenHash = flow.tokenHash :=
  flows_updateWhere (f := fun flow => { flow with consumedAt := some now })
    (fun _ => ⟨rfl, rfl⟩) h

theorem flows_closedFlows {flowId userId id : String} {flow' : FlowRow}
    (h : (closedFlows flowId userId now s).authFlows.get? id = some flow') :
    ∃ flow, s.authFlows.get? id = some flow ∧ flow'.userId = flow.userId ∧
      flow'.tokenHash = flow.tokenHash := by
  obtain ⟨flow₁, h₁, howner, htoken⟩ := flows_consumed h
  obtain ⟨flow, hflow, howner', htoken'⟩ := flows_consumed h₁
  exact ⟨flow, hflow, howner.trans howner', htoken.trans htoken'⟩

/-- A flow that is issued has the drawn id and token. -/
theorem flows_issued {userId : String} {purpose : Onboarding} {s₁ s' : Accounts}
    (h : issueOnboarding userId purpose draw now s₁ = .ok s')
    (hflows : s₁.authFlows = s.authFlows) (id : String) (flow' : FlowRow)
    (hflow : s'.authFlows.get? id = some flow') :
    (id = draw.flowId ∧ flow'.tokenHash = some (tokenHash draw.token)) ∨
      ∃ flow, s.authFlows.get? id = some flow ∧ flow'.userId = flow.userId ∧
        flow'.tokenHash = flow.tokenHash := by
  obtain ⟨-, rfl⟩ := insertFlow_eq_ok h
  dsimp only at hflow
  rw [Table.get?_set] at hflow
  split_ifs at hflow with hid
  · obtain rfl := Option.some.inj hflow
    exact .inl ⟨hid, rfl⟩
  · rw [← hflows]
    exact .inr (flows_consumed hflow)

theorem requireAdmin_eq_ok {principal : Principal} {u : Unit}
    (h : requireAdmin principal s = .ok u) : s.Administered := by
  simp only [requireAdmin, bind_eq_ok, found_eq_ok, failIf_eq_ok, not_or, not_not] at h
  obtain ⟨user, huser, hactive, hadmin⟩ := h
  exact ⟨principal.userId, user, huser, by simp [AccountRow.administers, hactive, hadmin]⟩

theorem unused_initialized {fresh : String → String} {userId : String} {db : Database}
    (h : db.usageBuckets.rows = []) :
    (initializeUserSecrets fresh userId db).usageBuckets.rows = [] := by
  rw [(sameBut_initialized fresh userId db).usageBuckets]
  exact h

theorem setupCommit_kept {username hash : String}
    (h : setupCommit vault username hash draw now s = .ok (done, s')) : Kept vault draw s s' := by
  have heffect := (setupCommit_accounts h).setup
  obtain ⟨-, rfl, -, -, -⟩ := setupCommit_eq_ok h
  simp only [setupCommit, requireSetup, bind_eq_ok, failIf_eq_ok, exists_const,
    found_eq_ok, Table.insert?_eq_some, pure_eq_ok, Prod.mk.injEq] at h
  obtain ⟨-, users, ⟨-, rfl⟩, passwords, ⟨-, rfl⟩, s₁, hrefresh, s₂, hissue, -, rfl⟩ := h
  obtain ⟨-, rfl⟩ := issueSession_eq_ok hissue
  have hpanel := hrefresh
  obtain ⟨panel, rfl⟩ := refreshPolicy_eq_ok hrefresh
  exact
    { flows := fun id flow' hflow => .inr ⟨flow', hflow, rfl, rfl⟩
      sessions := by
        intro hash' row' hrow
        dsimp only [initializeSecrets] at hrow
        rw [Table.get?_set] at hrow
        split_ifs at hrow with hhash
        · exact .inl hhash
        · exact .inr ⟨row', hrow⟩
      administered := fun _ => .inr (heffect rfl).2
      provisioned := by
        intro hprovisioned hfresh
        have hrefreshed := provisioned_refresh (unused_initialized hprovisioned.unused)
          (reads_initialized hprovisioned.reads hfresh draw.userId) hfresh hpanel
        exact hrefreshed.of_granted rfl fun id => Iff.rfl }

theorem onboardingOptionsCommit_kept {flowId challenge : String}
    (h : onboardingOptionsCommit flowId challenge s = .ok (done, s')) :
    Kept vault draw s s' := by
  simp only [onboardingOptionsCommit, pure_eq_ok, Prod.mk.injEq] at h
  obtain ⟨-, rfl⟩ := h
  exact
    { flows := fun id flow' hflow => .inr (flows_updateWhere
        (f := fun flow => { flow with challenge := some challenge }) (fun _ => ⟨rfl, rfl⟩) hflow)
      sessions := fun hash row' hrow => .inr ⟨row', hrow⟩
      administered := fun h => h
      provisioned := fun h _ => h.of_granted rfl fun id => Iff.rfl }

/-- A user whom a token opens a flow for is there. -/
theorem onboardingFlow_eq_ok {token : String} {purpose : Onboarding} {opened : OnboardingFlow}
    (h : onboardingFlow token purpose now s = .ok opened) :
    s.authFlows.get? opened.flowId = some opened.flow ∧
      opened.flow.tokenHash = some (tokenHash token) ∧
      opened.flow.userId = some opened.userId ∧
      s.users.get? opened.userId = some opened.user ∧ opened.user.status = purpose.requires := by
  simp only [onboardingFlow, bind_eq_ok, found_eq_ok, failIf_eq_ok, exists_const, pure_eq_ok,
    not_not, Prod.exists] at h
  obtain ⟨flowId, flow, hfind, -, userId, howner, _, -, user, huser, hstatus, rfl⟩ := h
  have htoken := List.find?_some hfind
  exact ⟨Table.get?_of_mem (List.mem_of_find?_eq_some hfind), by simpa using htoken, howner, huser,
    hstatus⟩

theorem get?_keptSessions_eq_some {purpose : Onboarding} {userId hash : String} {row : SessionRow}
    (h : (keptSessions purpose userId s).get? hash = some row) :
    s.sessions.get? hash = some row := by
  unfold keptSessions at h
  split_ifs at h
  · rw [Table.get?_deleteWhere, Option.filter_eq_some_iff] at h
    exact h.1
  · exact h

theorem onboardingCompleteCommit_kept {purpose : Onboarding} {token : String}
    {opened : OnboardingFlow} {passkey : Option String} {registration : Option Registration}
    {hash : String}
    (h : onboardingCompleteCommit vault purpose token opened passkey registration hash draw now s =
      .ok (done, s')) : Kept vault draw s s' := by
  have heffect := onboardingCompleteCommit_accounts h
  obtain ⟨current, hcurrent, -, -, -, _, _, hs'⟩ := onboardingCompleteCommit_eq_ok h
  obtain ⟨-, -, -, huser, -⟩ := onboardingFlow_eq_ok hcurrent
  simp only [onboardingCompleteCommit, bind_eq_ok, failIf_eq_ok, exists_const, pure_eq_ok,
    Prod.mk.injEq] at h
  obtain ⟨-, current', -, -, s₁, hconsume, s₂, hinsert, s₃, hrefresh, s₄, hissue, -, hlast⟩ := h
  exact
    { flows := by
        intro id flow' hflow
        rw [hs'] at hflow
        exact .inr (flows_closedFlows hflow)
      sessions := by
        intro hash' row' hrow
        rw [hs'] at hrow
        dsimp only at hrow
        rw [Table.get?_set] at hrow
        split_ifs at hrow with hhash
        · exact .inl hhash
        · exact .inr ⟨row', get?_keptSessions_eq_some hrow⟩
      administered := by
        rintro (hempty | hadministered)
        · have hmem := Table.mem_rows_iff.2 huser
          rw [hempty] at hmem
          cases hmem
        · exact .inr (heffect.administered hadministered)
      provisioned := by
        intro hprovisioned hfresh
        obtain ⟨-, rfl⟩ := consumeFlow_eq_ok hconsume
        obtain ⟨passkeys, rfl⟩ := insertOnboardingKey_eq_ok hinsert
        have hpanel : ∀ s : Accounts, (if purpose = .recovery then
            { s with
              passkeys := s.passkeys.deleteWhere fun _ key => key.userId = opened.userId
              sessions := s.sessions.deleteWhere fun _ session => session.userId = opened.userId }
            else s).panel = s.panel := fun s => by split_ifs <;> rfl
        have hrefreshed := provisioned_refresh
          (by
            dsimp only [initializeSecrets]
            rw [hpanel]
            exact unused_initialized hprovisioned.unused)
          (by
            dsimp only [initializeSecrets]
            rw [hpanel]
            exact reads_initialized hprovisioned.reads hfresh opened.userId)
          hfresh hrefresh
        obtain ⟨-, rfl⟩ := issueSession_eq_ok hissue
        rw [← hlast]
        exact hrefreshed.of_granted rfl fun id => Iff.rfl }

theorem updateUser_kept {principal : Principal} {id : String} {changes : UserChanges}
    (h : updateUser vault principal id changes draw now s = .ok (done, s')) :
    Kept vault draw s s' := by
  have heffect := updateUser_accounts h
  obtain ⟨user, huser, -, -, -, _, hs'⟩ := updateUser_eq_ok h
  simp only [updateUser, bind_eq_ok, failIf_eq_ok, exists_const, found_eq_ok, pure_eq_ok,
    Prod.mk.injEq] at h
  obtain ⟨_, hadmin, _, -, -, -, -, s₁, hrefresh, -, rfl⟩ := h
  exact
    { flows := by
        intro id' flow' hflow
        rw [hs'] at hflow
        exact .inr ⟨flow', hflow, rfl, rfl⟩
      sessions := by
        intro hash row' hrow
        rw [hs'] at hrow
        dsimp only at hrow
        split_ifs at hrow
        · rw [Table.get?_deleteWhere, Option.filter_eq_some_iff] at hrow
          exact .inr ⟨row', hrow.1⟩
        · exact .inr ⟨row', hrow⟩
      administered := fun _ => .inr (heffect.administered (requireAdmin_eq_ok hadmin))
      provisioned := by
        intro hprovisioned hfresh
        refine provisioned_refresh ?_ ?_ hfresh hrefresh
        · split_ifs <;> exact hprovisioned.unused
        · split_ifs <;> exact hprovisioned.reads }

/-- A pending account is granted nothing. -/
theorem granted_pending {id : String} {row : AccountRow} (hnew : s.users.get? id = none)
    (hpending : row.status = .pending) (hs' : s'.users = s.users.set id row) (id' : String) :
    s'.Granted id' ↔ s.Granted id' := by
  unfold Accounts.Granted
  rw [hs', Table.get?_set]
  split_ifs with hid
  · rw [hid, hnew]
    constructor
    · rintro ⟨user, huser, hactive, -⟩
      obtain rfl := Option.some.inj huser
      rw [hpending] at hactive
      cases hactive
    · rintro ⟨user, huser, -⟩
      cases huser
  · rfl

theorem createUser_kept {principal : Principal} {username : String} {role : Role}
    {limit : Option Int} (h : createUser principal username role limit draw now s = .ok s') :
    Kept vault draw s s' := by
  obtain ⟨hnew, hissue⟩ := createUser_eq_ok h
  have hflows := flows_issued (s := s) hissue rfl
  obtain ⟨authFlows, rfl⟩ := issueOnboarding_eq_ok hissue
  simp only [createUser, bind_eq_ok] at h
  obtain ⟨_, hadmin, -⟩ := h
  have heffect : AccountEffect .quiet s { s with
      users := s.users.set draw.userId ⟨username, role, .pending, limit, 1, now⟩, authFlows } :=
    pending_accounts rfl hnew rfl rfl
  exact
    { flows := hflows
      sessions := fun hash row' hrow => .inr ⟨row', hrow⟩
      administered := fun _ => .inr (heffect.administered (requireAdmin_eq_ok hadmin))
      provisioned := fun h _ => h.of_granted rfl (granted_pending hnew rfl rfl) }

theorem createUserFlow_kept {principal : Principal} {id : String} {purpose : Onboarding}
    (h : createUserFlow principal id purpose draw now s = .ok s') : Kept vault draw s s' := by
  simp only [createUserFlow, bind_eq_ok, failIf_eq_ok, exists_const, found_eq_ok] at h
  obtain ⟨_, -, _, -, -, hissue⟩ := h
  have hflows := flows_issued hissue rfl
  obtain ⟨authFlows, rfl⟩ := issueOnboarding_eq_ok hissue
  exact
    { flows := hflows
      sessions := fun hash row' hrow => .inr ⟨row', hrow⟩
      administered := fun h => h
      provisioned := fun h _ => h.of_granted rfl fun id => Iff.rfl }

/-- What a request of the life cycle holds. A completion holds the flow of its token. -/
def Held.OfLifeCycle (w : World) : Held → Prop
  | .setupAdministrator _ => True
  | .onboardingOptions _ => True
  | .onboardingComplete _ token opened _ => opened.flowId ∈ w.flowIds ∧
    ∀ flow, w.tables.authFlows.get? opened.flowId = some flow →
      flow.userId = some opened.userId ∧ flow.tokenHash = some (tokenHash token)
  | _ => False

/-- **A transaction of the life cycle.** -/
theorem transaction_kept (hflights : ∀ request flight, w.flights request = some flight →
      flight.held.OfLifeCycle w) (hevent : e.lifeCycle = true)
    (h : w.transaction vault e = some (draw, .ok (done, s'))) : Kept vault draw w.tables s' := by
  cases e with
  | arrive request call now => cases h
  | resume request answer draw' now =>
    obtain ⟨flight, hflight, heq⟩ := Option.map_eq_some_iff.1 h
    obtain ⟨rfl, hcommit⟩ := Prod.mk.inj heq
    have hheld := hflights request flight hflight
    cases hcall : flight.held with
    | setupAdministrator username =>
      rw [hcall] at hcommit
      exact setupCommit_kept hcommit
    | onboardingOptions flowId =>
      rw [hcall] at hcommit
      exact onboardingOptionsCommit_kept hcommit
    | onboardingComplete purpose token opened passkey =>
      rw [hcall] at hcommit
      exact onboardingCompleteCommit_kept hcommit
    | _ =>
      rw [hcall] at hheld
      exact hheld.elim
  | perform call draw' now =>
    obtain ⟨rfl, hperform⟩ := Prod.mk.inj (Option.some.inj h)
    cases call with
    | createUser principal username role limit =>
      simp only [perform, bind_eq_ok, pure_eq_ok, Prod.mk.injEq] at hperform
      obtain ⟨s₁, hcreate, rfl, rfl⟩ := hperform
      exact createUser_kept hcreate
    | updateUser principal id changes => exact updateUser_kept hperform
    | createUserFlow principal id purpose =>
      simp only [perform, bind_eq_ok, pure_eq_ok, Prod.mk.injEq] at hperform
      obtain ⟨s₁, hcreate, rfl, rfl⟩ := hperform
      exact createUserFlow_kept hcreate
    | _ => cases hevent

/-! ## What every run keeps -/

structure LifeCycle (vault : Vault) (w : World) : Prop where
  flows : ∀ id flow, w.tables.authFlows.get? id = some flow →
    id ∈ w.flowIds ∧ ∀ hash, flow.tokenHash = some hash → hash ∈ w.tokens
  unique : ∀ id flow id' flow' hash, w.tables.authFlows.get? id = some flow →
    w.tables.authFlows.get? id' = some flow' → flow.tokenHash = some hash →
    flow'.tokenHash = some hash → id = id'
  sessions : ∀ hash row, w.tables.sessions.get? hash = some row → hash ∈ w.tokens
  flights : ∀ request flight, w.flights request = some flight → flight.held.OfLifeCycle w
  idle : ∃ n, ∀ request, n ≤ request → w.flights request = none
  administered : w.tables.users.rows = [] ∨ w.tables.Administered
  provisioned : Provisioned vault w.tables

theorem lifeCycle_start : LifeCycle vault (.start .empty) where
  flows _ _ h := by cases h
  unique _ _ _ _ _ h := by cases h
  sessions _ _ h := by cases h
  flights _ _ h := by cases h
  idle := ⟨0, fun _ _ => rfl⟩
  administered := .inl rfl
  provisioned := ⟨rfl, fun _ _ h => (by cases h), fun _ h => (by cases h)⟩

/-- A completion that is checked holds the flow of its token. -/
theorem check_ofLifeCycle {call : Call} {held : Held} (hw : LifeCycle vault w)
    (hcall : call.lifeCycle = true) (h : (check call now w.tables).2 = .ok held) :
    held.OfLifeCycle w := by
  cases call with
  | setupAdministrator username =>
    obtain ⟨_, -, h⟩ := proceed_eq_ok h
    obtain ⟨s₁, -, h⟩ := limited_eq_ok h
    cases h
    trivial
  | onboardingOptions purpose token =>
    obtain ⟨s₁, -, h⟩ := limited_eq_ok h
    obtain ⟨_, -, h⟩ := proceed_eq_ok h
    cases h
    trivial
  | onboardingComplete purpose token flowId passkey =>
    obtain ⟨opened, hopened, h⟩ := proceed_eq_ok h
    obtain ⟨s₁, -, h⟩ := limited_eq_ok h
    cases h
    simp only [bind_eq_ok, failIf_eq_ok, exists_const, pure_eq_ok] at hopened
    obtain ⟨_, hflow, -, rfl⟩ := hopened
    obtain ⟨hrow, htoken, howner, -, -⟩ := onboardingFlow_eq_ok hflow
    refine ⟨(hw.flows _ _ hrow).1, fun flow hflow => ?_⟩
    obtain rfl := Option.some.inj (hrow.symm.trans hflow)
    exact ⟨howner, htoken⟩
  | _ => cases hcall

/-- The requests that wait after an event of the life cycle. -/
theorem flightsAfter_cases (hw : LifeCycle vault w) (hevent : e.lifeCycle = true) {request : ℕ}
    {flight : Flight} (h : w.flightsAfter e request = some flight) :
    flight.held.OfLifeCycle w := by
  cases e with
  | arrive r call now =>
    simp only [World.flightsAfter] at h
    split_ifs at h
    · obtain ⟨held, hheld, rfl⟩ := Option.map_eq_some_iff.1 h
      cases hcheck : (check call now w.tables).2 with
      | error err => simp [hcheck, Except.toOption] at hheld
      | ok held' =>
        simp only [hcheck, Except.toOption, Option.some.injEq] at hheld
        rw [← hheld]
        exact check_ofLifeCycle hw hevent hcheck
    · exact hw.flights request flight h
  | resume r answer draw now =>
    simp only [World.flightsAfter] at h
    split_ifs at h
    exact hw.flights request flight h
  | perform call draw now => exact hw.flights request flight h

theorem idle_flightsAfter (h : ∃ n, ∀ request, n ≤ request → w.flights request = none)
    (e : Event) : ∃ n, ∀ request, n ≤ request → w.flightsAfter e request = none := by
  obtain ⟨n, hn⟩ := h
  cases e with
  | arrive r call now =>
    refine ⟨max n (r + 1), fun request hrequest => ?_⟩
    have hne : ¬ (request = r ∧ (w.flights r).isNone) := by
      rintro ⟨rfl, -⟩
      omega
    simp only [World.flightsAfter, if_neg hne]
    exact hn request (by omega)
  | resume r answer draw now =>
    refine ⟨n, fun request hrequest => ?_⟩
    simp only [World.flightsAfter]
    split_ifs
    · rfl
    · exact hn request hrequest
  | perform call draw now => exact ⟨n, hn⟩

/-- A held flow stays the flow of its token: a flow that is issued has a new id. -/
theorem Held.OfLifeCycle.mono {held : Held} (h : held.OfLifeCycle w)
    (hflowIds : ∀ id ∈ w.flowIds, id ∈ w'.flowIds)
    (hflows : ∀ id flow', id ∈ w.flowIds → w'.tables.authFlows.get? id = some flow' →
      ∃ flow, w.tables.authFlows.get? id = some flow ∧ flow'.userId = flow.userId ∧
        flow'.tokenHash = flow.tokenHash) : held.OfLifeCycle w' := by
  cases held with
  | onboardingComplete purpose token opened passkey =>
    refine ⟨hflowIds _ h.1, fun flow' hflow' => ?_⟩
    obtain ⟨flow, hflow, howner, htoken⟩ := hflows _ flow' h.1 hflow'
    obtain ⟨howner', htoken'⟩ := h.2 flow hflow
    exact ⟨howner.trans howner', htoken.trans htoken'⟩
  | setupAdministrator username => trivial
  | onboardingOptions flowId => trivial
  | _ => exact h.elim

/-- **One event.** -/
theorem LifeCycle.step (hw : LifeCycle vault w) (he : Allowed vault w e) :
    LifeCycle vault (w.step vault e) := by
  have hflights : ∀ request flight, w.flightsAfter e request = some flight →
      flight.held.OfLifeCycle w := fun request flight =>
    flightsAfter_cases hw he.lifeCycle
  have hidle := idle_flightsAfter hw.idle e
  have hstepped := w.stepped vault e
  generalize w.step vault e = w' at hstepped ⊢
  cases hstepped with
  | @committed draw done s' htransaction =>
    obtain ⟨hflowId, htoken⟩ := he.fresh _ _ htransaction
    have hkept := transaction_kept hw.flights he.lifeCycle htransaction
    exact
      { flows := by
          intro id flow hflow
          rcases hkept.flows id flow hflow with ⟨rfl, hnew⟩ | ⟨old, hold, -, hsame⟩
          · refine ⟨List.mem_cons_self, fun hash hhash => ?_⟩
            obtain rfl := Option.some.inj (hnew.symm.trans hhash)
            exact List.mem_cons_self
          · refine ⟨List.mem_cons_of_mem _ (hw.flows id old hold).1, fun hash hhash => ?_⟩
            exact List.mem_cons_of_mem _ ((hw.flows id old hold).2 hash (hsame.symm.trans hhash))
        unique := by
          intro id flow id' flow' hash hflow hflow' hhash hhash'
          rcases hkept.flows id flow hflow with ⟨rfl, hnew⟩ | ⟨old, hold, -, hsame⟩ <;>
            rcases hkept.flows id' flow' hflow' with ⟨rfl, hnew'⟩ | ⟨old', hold', -, hsame'⟩
          · rfl
          · -- The drawn token is no token of an old flow.
            obtain rfl := Option.some.inj (hnew.symm.trans hhash)
            exact absurd ((hw.flows id' old' hold').2 _ (hsame'.symm.trans hhash')) htoken
          · obtain rfl := Option.some.inj (hnew'.symm.trans hhash')
            exact absurd ((hw.flows id old hold).2 _ (hsame.symm.trans hhash)) htoken
          · exact hw.unique id old id' old' hash hold hold' (hsame.symm.trans hhash)
              (hsame'.symm.trans hhash')
        sessions := by
          intro hash row hrow
          rcases hkept.sessions hash row hrow with rfl | ⟨old, hold⟩
          · exact List.mem_cons_self
          · exact List.mem_cons_of_mem _ (hw.sessions hash old hold)
        flights := by
          intro request flight hflight
          refine (hflights request flight hflight).mono (fun id hid => List.mem_cons_of_mem _ hid)
            fun id flow' hid hflow' => ?_
          rcases hkept.flows id flow' hflow' with ⟨rfl, -⟩ | hold
          · exact absurd hid hflowId
          · exact hold
        idle := hidle
        administered := hkept.administered hw.administered
        provisioned := hkept.provisioned hw.provisioned (he.reads _ _ htransaction) }
  | unchanged htables hflowIds htokens _ =>
    obtain ⟨rateLimits, rfl⟩ := htables
    exact
      { flows := fun id flow hflow => ⟨hflowIds id (hw.flows id flow hflow).1,
          fun hash hhash => htokens hash ((hw.flows id flow hflow).2 hash hhash)⟩
        unique := hw.unique
        sessions := fun hash row hrow => htokens hash (hw.sessions hash row hrow)
        flights := fun request flight hflight => (hflights request flight hflight).mono hflowIds
          fun id flow' _ hflow' => ⟨flow', hflow', rfl, rfl⟩
        idle := hidle
        administered := hw.administered
        provisioned := hw.provisioned.of_granted rfl fun id => Iff.rfl }

theorem LifeCycle.runs (hw : LifeCycle vault w) (h : Runs vault (Allowed vault) w w') :
    LifeCycle vault w' :=
  h.induction hw fun _ _ hw he => hw.step he

/-! ## What a transaction does to an account -/

inductive AccountStep (w : World) (e : Event) (s' : Accounts) : Prop where
  | same (users : s'.users = w.tables.users) (passwords : s'.passwords = w.tables.passwords)
  | setup {id : String} {row : AccountRow} {password : PasswordRow}
      (empty : w.tables.users.rows = []) (active : row.status = .active)
      (users : s'.users = w.tables.users.set id row)
      (passwords : s'.passwords = w.tables.passwords.set id password)
  | created {id : String} {row : AccountRow} (new : w.tables.users.get? id = none)
      (pending : row.status = .pending) (users : s'.users = w.tables.users.set id row)
      (passwords : s'.passwords = w.tables.passwords)
  | updated {principal : Principal} {id : String} {changes : UserChanges} {draw : Draw} {now : Int}
      {user : AccountRow} (event : e = .perform (.updateUser principal id changes) draw now)
      (account : w.tables.users.get? id = some user)
      (activated : changes.status = some .active → (w.tables.passwords.get? id).isSome)
      (users : s'.users = w.tables.users.set id (changes.apply user))
      (passwords : s'.passwords = w.tables.passwords)
  | completed {purpose : Onboarding} {id : String} {user : AccountRow} {version : Int}
      {password : PasswordRow} (account : w.tables.users.get? id = some user)
      (status : user.status = purpose.requires)
      (users : s'.users = w.tables.users.updateWhere (fun id' _ => id' = id) fun user =>
        { user with status := .active, version })
      (passwords : s'.passwords = w.tables.passwords.set id password)

/-- A completion is for the account that its token names now. -/
theorem completed_step (hw : LifeCycle vault w) {purpose : Onboarding} {token : String}
    {opened : OnboardingFlow} {passkey : Option String} {registration : Option Registration}
    {hash : String} (hheld : (Held.onboardingComplete purpose token opened passkey).OfLifeCycle w)
    (h : onboardingCompleteCommit vault purpose token opened passkey registration hash draw now
      w.tables = .ok (done, s')) : AccountStep w e s' := by
  obtain ⟨current, hcurrent, ⟨row, hrow, -⟩, -, -, _, _, rfl⟩ := onboardingCompleteCommit_eq_ok h
  obtain ⟨hcurrentRow, htoken, howner, huser, hstatus⟩ := onboardingFlow_eq_ok hcurrent
  obtain ⟨howner', htoken'⟩ := hheld.2 row hrow
  have hsame := hw.unique _ _ _ _ _ hcurrentRow hrow htoken htoken'
  rw [hsame, hrow] at hcurrentRow
  obtain rfl := Option.some.inj hcurrentRow
  obtain hid : opened.userId = current.userId := Option.some.inj (howner'.symm.trans howner)
  rw [← hid] at huser
  exact .completed huser hstatus rfl rfl

theorem accountStep (hw : LifeCycle vault w) (hevent : e.lifeCycle = true)
    (h : w.transaction vault e = some (draw, .ok (done, s'))) : AccountStep w e s' := by
  cases e with
  | arrive request call now => cases h
  | resume request answer draw' now =>
    obtain ⟨flight, hflight, heq⟩ := Option.map_eq_some_iff.1 h
    obtain ⟨rfl, hcommit⟩ := Prod.mk.inj heq
    have hheld := hw.flights request flight hflight
    cases hcall : flight.held with
    | setupAdministrator username =>
      rw [hcall] at hcommit
      obtain ⟨hempty, -, -, panel, rfl⟩ := setupCommit_eq_ok hcommit
      exact .setup hempty rfl rfl rfl
    | onboardingOptions flowId =>
      rw [hcall] at hcommit
      simp only [commit, onboardingOptionsCommit, pure_eq_ok, Prod.mk.injEq] at hcommit
      obtain ⟨-, rfl⟩ := hcommit
      exact .same rfl rfl
    | onboardingComplete purpose token opened passkey =>
      rw [hcall] at hcommit hheld
      exact completed_step hw hheld hcommit
    | _ =>
      rw [hcall] at hheld
      exact hheld.elim
  | perform call draw' now =>
    obtain ⟨rfl, hperform⟩ := Prod.mk.inj (Option.some.inj h)
    cases call with
    | createUser principal username role limit =>
      simp only [perform, bind_eq_ok, pure_eq_ok, Prod.mk.injEq] at hperform
      obtain ⟨s₁, hcreate, rfl, rfl⟩ := hperform
      obtain ⟨hnew, hissue⟩ := createUser_eq_ok hcreate
      obtain ⟨_, rfl⟩ := issueOnboarding_eq_ok hissue
      exact .created hnew rfl rfl rfl
    | updateUser principal id changes =>
      obtain ⟨user, huser, hactivated, -, -, panel, rfl⟩ := updateUser_eq_ok hperform
      exact .updated rfl huser hactivated rfl rfl
    | createUserFlow principal id purpose =>
      simp only [perform, createUserFlow, bind_eq_ok, failIf_eq_ok, exists_const, found_eq_ok,
        pure_eq_ok, Prod.mk.injEq] at hperform
      obtain ⟨s₁, ⟨_, -, _, -, -, hissue⟩, rfl, rfl⟩ := hperform
      obtain ⟨_, rfl⟩ := issueOnboarding_eq_ok hissue
      exact .same rfl rfl
    | _ => cases hevent

/-! ## The dead end -/

/-- The account is disabled and has no password. -/
structure DeadEnd (s : Accounts) (id : String) : Prop where
  disabled : ∃ user, s.users.get? id = some user ∧ user.status = .disabled
  passwordless : s.passwords.get? id = none

theorem DeadEnd.accountStep {id : String} (h : DeadEnd w.tables id) (hstep : AccountStep w e s') :
    DeadEnd s' id := by
  obtain ⟨⟨user, huser, hdisabled⟩, hpassword⟩ := h
  cases hstep with
  | same users passwords => exact ⟨⟨user, users ▸ huser, hdisabled⟩, passwords ▸ hpassword⟩
  | setup empty active users passwords =>
    have hmem := Table.mem_rows_iff.2 huser
    rw [empty] at hmem
    cases hmem
  | @created id' row new pending users passwords =>
    have hne : id ≠ id' := by
      rintro rfl
      exact nomatch new.symm.trans huser
    exact ⟨⟨user, by rw [users, Table.get?_set_of_ne _ _ hne]; exact huser, hdisabled⟩,
      passwords ▸ hpassword⟩
  | @updated principal id' changes draw now user' event account activated users passwords =>
    refine ⟨?_, passwords ▸ hpassword⟩
    rw [users, Table.get?_set]
    split_ifs with hid
    · obtain rfl := hid
      obtain rfl := Option.some.inj (huser.symm.trans account)
      refine ⟨_, rfl, ?_⟩
      show changes.status.getD user.status = .disabled
      cases hstatus : changes.status with
      | none => exact hdisabled
      | some status =>
        -- Enabling it asks for a password, and nothing else can be asked for.
        cases hactive : changes.active with
        | none => simp [UserChanges.status, hactive] at hstatus
        | some active =>
          cases active with
          | false =>
            simp only [UserChanges.status, hactive, Option.map_some, Bool.false_eq_true, if_false,
              Option.some.injEq] at hstatus
            exact hstatus.symm
          | true =>
            have hsome := activated (by simp [UserChanges.status, hactive])
            rw [hpassword] at hsome
            cases hsome
    · exact ⟨user, huser, hdisabled⟩
  | @completed purpose id' user' version password account status users passwords =>
    have hne : id ≠ id' := by
      rintro rfl
      obtain rfl := Option.some.inj (huser.symm.trans account)
      rw [hdisabled] at status
      cases purpose <;> cases status
    refine ⟨⟨user, ?_, hdisabled⟩, ?_⟩
    · rw [users, Table.get?_updateWhere, huser, Option.map_some, if_neg (by simpa using hne)]
    · rw [passwords, Table.get?_set_of_ne _ _ hne]
      exact hpassword

theorem DeadEnd.step {id : String} (hw : LifeCycle vault w) (he : Allowed vault w e)
    (h : DeadEnd w.tables id) : DeadEnd (w.step vault e).tables id := by
  have hstepped := w.stepped vault e
  generalize w.step vault e = w' at hstepped ⊢
  cases hstepped with
  | committed htransaction =>
    exact h.accountStep (Identity.accountStep hw he.lifeCycle htransaction)
  | unchanged htables _ _ _ =>
    obtain ⟨rateLimits, rfl⟩ := htables
    exact ⟨h.disabled, h.passwordless⟩

/-- **There is no way back** for a disabled account without a password. -/
theorem DeadEnd.not_activatable {id : String} (hw : LifeCycle vault w) (h : DeadEnd w.tables id)
    (since : Int) : ¬ Activatable vault w since id := by
  rintro ⟨w', hruns, user, huser, hactive⟩
  have hboth : LifeCycle vault w' ∧ DeadEnd w'.tables id :=
    hruns.induction (I := fun w => LifeCycle vault w ∧ DeadEnd w.tables id) ⟨hw, h⟩
      fun _ _ hboth he => ⟨hboth.1.step he.toAllowed, hboth.2.step hboth.1 he.toAllowed⟩
  obtain ⟨user', huser', hdisabled⟩ := hboth.2.disabled
  obtain rfl := Option.some.inj (huser.symm.trans huser')
  rw [hactive] at hdisabled
  cases hdisabled

/-! ## The way back -/

/-- The world after a transaction that succeeds, with the same requests waiting. -/
def World.after (w : World) (draw : Draw) (done : Done) (s' : Accounts) : World where
  tables := s'
  flights := w.flights
  flowIds := draw.flowId :: w.flowIds
  tokens := tokenHash draw.token :: w.tokens
  log := done :: w.log

theorem NewDraws.after {draws : List Draw} (h : NewDraws vault w (draw :: draws)) :
    NewDraws vault (w.after draw done s') draws := by
  obtain ⟨hflowIds, hnew, htokens, hnewTokens, hreads⟩ := h
  rw [List.map_cons, List.nodup_cons] at hflowIds htokens
  exact
    { flowIds := hflowIds.2
      newFlowIds := fun draw' hdraw' hmem => by
        rcases List.mem_cons.1 hmem with heq | hmem
        · exact hflowIds.1 (List.mem_map.2 ⟨draw', hdraw', heq⟩)
        · exact hnew draw' (List.mem_cons_of_mem _ hdraw') hmem
      tokens := htokens.2
      newTokens := fun draw' hdraw' hmem => by
        rcases List.mem_cons.1 hmem with heq | hmem
        · exact htokens.1 (List.mem_map.2 ⟨draw', hdraw', heq⟩)
        · exact hnewTokens draw' (List.mem_cons_of_mem _ hdraw') hmem
      reads := fun draw' hdraw' => hreads draw' (List.mem_cons_of_mem _ hdraw') }

/-- An administrator who is logged in. -/
def administrator (id : String) (user : AccountRow) : Principal where
  userId := id
  user
  authentication := .session
  recentAuthentication := true

/-- A synchronous call of an administrator that succeeds. -/
theorem runs_perform {draws : List Draw} {adminId : String} {admin : AccountRow} (call : SyncCall)
    {since : Int} (id : String) (hcall : call.lifeCycle = true)
    (hprincipal : call.principal = some (administrator adminId admin))
    (hadmin : w.tables.users.get? adminId = some admin) (hadministers : admin.administers = true)
    (hsince : since ≤ now) (hdraws : NewDraws vault w (draw :: draws))
    (h : perform vault call draw now w.tables = .ok (done, s')) :
    Runs vault (Reviving vault since id) w (w.after draw done s') := by
  have htransaction : w.transaction vault (.perform call draw now) =
      some (draw, .ok (done, s')) := by rw [← h]; rfl
  have hstep : w.step vault (.perform call draw now) = w.after draw done s' := by
    rw [World.step, htransaction]
    rfl
  rw [← hstep]
  refine .step _ .refl
    ⟨⟨⟨hcall, fun draw' result hdraw => ?_, fun draw' result hdraw => ?_⟩, hsince⟩,
      administrator adminId admin, admin, hprincipal, hadmin, hadministers⟩
  · obtain ⟨rfl, -⟩ := Prod.mk.inj (Option.some.inj (htransaction.symm.trans hdraw))
    exact ⟨hdraws.newFlowIds _ List.mem_cons_self, hdraws.newTokens _ List.mem_cons_self⟩
  · obtain ⟨rfl, -⟩ := Prod.mk.inj (Option.some.inj (htransaction.symm.trans hdraw))
    exact hdraws.reads _ List.mem_cons_self

/-- A request of the owner of a flow that is checked, waits, and succeeds, with nothing between. -/
theorem runs_request {draws : List Draw} {call : Call} {held : Held}
    (answer : Answer) {request : ℕ} {s₁ : Accounts} {since : Int} {id token flowId : String}
    {flow : FlowRow} (hcall : call.lifeCycle = true) (hsince : since ≤ now)
    (hfree : w.flights request = none) (hdraws : NewDraws vault w (draw :: draws))
    (htoken : call.token = some token) (hheld : held.flowId = some flowId)
    (hflow : w.tables.authFlows.get? flowId = some flow) (howner : flow.userId = some id)
    (hhash : flow.tokenHash = some (tokenHash token))
    (hcheck : check call now w.tables = (s₁, .ok held))
    (hsame : s₁.authFlows = w.tables.authFlows)
    (h : commit vault held answer draw now s₁ = .ok (done, s')) :
    Runs vault (Reviving vault since id) w (w.after draw done s') := by
  have harrive : Reviving vault since id w (.arrive request call now) :=
    ⟨⟨⟨hcall, World.fresh_arrive _ _ _ _ _, fun _ _ h => by cases h⟩, hsince⟩,
      token, flowId, flow, htoken, hflow, howner, hhash⟩
  have hwaits : (w.step vault (.arrive request call now)).flights request =
      some ⟨held, w.tables⟩ := by
    show (if request = request ∧ (w.flights request).isNone then
      (check call now w.tables).2.toOption.map fun held => ⟨held, w.tables⟩
      else w.flights request) = _
    rw [if_pos ⟨rfl, by rw [hfree]; rfl⟩, hcheck]
    rfl
  have htables : (w.step vault (.arrive request call now)).tables = s₁ := by
    show (if (w.flights request).isNone then (check call now w.tables).1 else w.tables) = s₁
    rw [if_pos (by rw [hfree]; rfl), hcheck]
  have htransaction : (w.step vault (.arrive request call now)).transaction vault
      (.resume request answer draw now) = some (draw, .ok (done, s')) := by
    show ((w.step vault (.arrive request call now)).flights request).map _ = _
    rw [hwaits, Option.map_some, htables, h]
  have hflights : (w.step vault (.arrive request call now)).flightsAfter
      (.resume request answer draw now) = w.flights := by
    funext r
    show (if r = request then none else if r = request ∧ (w.flights request).isNone then _
      else w.flights r) = w.flights r
    by_cases hr : r = request
    · rw [if_pos hr, hr, hfree]
    · rw [if_neg hr, if_neg fun h => hr h.1]
  have hstep : (w.step vault (.arrive request call now)).step vault
      (.resume request answer draw now) = w.after draw done s' := by
    rw [World.step, htransaction]
    show ({ (w.step vault (.arrive request call now)).settle draw (.ok (done, s')) with
      flights := (w.step vault (.arrive request call now)).flightsAfter
        (.resume request answer draw now) } : World) = _
    rw [hflights]
    rfl
  have hflow' : (w.step vault (.arrive request call now)).tables.authFlows.get? flowId =
      some flow := by
    rw [htables, hsame]
    exact hflow
  rw [← hstep]
  refine .step _ (.step _ .refl harrive)
    ⟨⟨⟨rfl, fun draw' result hdraw => ?_, fun draw' result hdraw => ?_⟩, hsince⟩,
      _, flowId, flow, hwaits, hheld, hflow', howner⟩
  · obtain ⟨rfl, -⟩ := Prod.mk.inj (Option.some.inj (htransaction.symm.trans hdraw))
    exact ⟨hdraws.newFlowIds _ List.mem_cons_self, hdraws.newTokens _ List.mem_cons_self⟩
  · obtain ⟨rfl, -⟩ := Prod.mk.inj (Option.some.inj (htransaction.symm.trans hdraw))
    exact hdraws.reads _ List.mem_cons_self

theorem requireAdmin_of {id : String} {user : AccountRow} (huser : s.users.get? id = some user)
    (hadmin : user.administers = true) : requireAdmin (administrator id user) s = .ok () := by
  simp only [AccountRow.administers, Bool.and_eq_true, decide_eq_true_eq] at hadmin
  simp only [requireAdmin, administrator, huser, found, ok_bind]
  exact failIf_of_not fun h => h.elim (absurd hadmin.2) (absurd hadmin.1)

/-- The limit of an account is set to zero, and it may be enabled. -/
def zeroLimit (version : Int) (active : Option Bool) : UserChanges where
  expectedVersion := version
  active
  monthlyLimitBytes := some (some 0)

/-- An account whose limit is zero is granted nothing, so the policy does not change. -/
theorem granted_zero {id : String} {user : AccountRow} (user' : AccountRow)
    (huser : s.users.get? id = some user)
    (hinactive : user.status ≠ .active) (hzero : user'.monthlyLimitBytes = some 0)
    (hs' : ∀ id', s'.users.get? id' = if id' = id then some user' else s.users.get? id')
    (id' : String) : s'.Granted id' ↔ s.Granted id' := by
  unfold Accounts.Granted
  rw [hs']
  split_ifs with hid
  · rw [hid, huser]
    constructor
    · rintro ⟨other, hother, -, hlimit⟩
      obtain rfl := Option.some.inj hother
      exact absurd (hlimit 0 hzero) (lt_irrefl 0)
    · rintro ⟨other, hother, hactive, -⟩
      obtain rfl := Option.some.inj hother
      exact absurd hactive hinactive
  · rfl

/-- **An administrator can set the limit of an account that is not active to zero**, and enable it
if it has a password. -/
theorem exists_zeroLimit (now : Int) (h : Provisioned vault s) {id adminId : String}
    {user admin : AccountRow} (hadmin : s.users.get? adminId = some admin)
    (hadministers : admin.administers = true) (huser : s.users.get? id = some user)
    (hinactive : user.status ≠ .active) {active : Option Bool}
    (hactive : active = none ∨ active = some true ∧ (s.passwords.get? id).isSome)
    (hfresh : vault.ReadsFresh draw.secrets) :
    ∃ s', updateUser vault (administrator adminId admin) id (zeroLimit user.version active) draw now
      s = .ok (.quiet, s') := by
  have hnotDisabled : (zeroLimit user.version active).status ≠ some .disabled := by
    rcases hactive with rfl | ⟨rfl, -⟩
    · exact fun h => by cases h
    · exact fun h => by cases h
  have hpassword : ¬ ((zeroLimit user.version active).status = some .active ∧
      (s.passwords.get? id).isNone = true) := by
    rintro ⟨hstatus, hnone⟩
    rcases hactive with rfl | ⟨-, hsome⟩
    · cases hstatus
    · rw [Option.isNone_iff_eq_none] at hnone
      rw [hnone] at hsome
      cases hsome
  have hnotAdmin : ¬ user.administers = true := by
    simp only [AccountRow.administers, Bool.and_eq_true, decide_eq_true_eq]
    exact fun h => hinactive h.2
  obtain ⟨s', hrefresh⟩ := exists_refreshPolicy now
    { s with users := s.users.set id ((zeroLimit user.version active).apply user) } h
    h.unused h.reads rfl
    (granted_zero ((zeroLimit user.version active).apply user) huser hinactive rfl
      fun id' => Table.get?_set _ _ _ _)
    (fun _ => rfl) hfresh
  refine ⟨s', ?_⟩
  have hversion : ¬ user.version ≠ (zeroLimit user.version active).expectedVersion :=
    fun h => h rfl
  simp only [updateUser, requireAdmin_of hadmin hadministers, huser, found, ok_bind,
    failIf_of_not hversion, failIf_of_not hpassword,
    failIf_of_not fun h : user.administers = true ∧ _ => hnotAdmin h.1,
    if_neg hnotDisabled, hrefresh]
  rfl

/-- A token opens a flow for an account. -/
structure Opens (s : Accounts) (now : Int) (purpose : Onboarding) (token : String)
    (opened : OnboardingFlow) : Prop where
  row : s.authFlows.get? opened.flowId = some opened.flow
  hasToken : opened.flow.tokenHash = some (tokenHash token)
  unique : ∀ id flow, s.authFlows.get? id = some flow →
    flow.tokenHash = some (tokenHash token) → id = opened.flowId
  hasPurpose : opened.flow.purpose = purpose.purpose
  owner : opened.flow.userId = some opened.userId
  unconsumed : opened.flow.consumedAt = none
  unexpired : now < opened.flow.expiresAt
  account : s.users.get? opened.userId = some opened.user
  status : opened.user.status = purpose.requires

theorem Opens.onboardingFlow {purpose : Onboarding} {token : String} {opened : OnboardingFlow}
    (h : Opens s now purpose token opened) : onboardingFlow token purpose now s = .ok opened := by
  obtain ⟨flowId, flow, userId, user⟩ := opened
  obtain ⟨hflow, htoken, hunique, hpurpose, howner, hopen, hnow, huser, hstatus⟩ := h
  dsimp only at hflow htoken hunique hpurpose howner hopen hnow huser hstatus
  have hfind : s.authFlows.rows.find? (fun x => x.2.tokenHash = some (tokenHash token)) =
      some (flowId, flow) := by
    cases hfound : s.authFlows.rows.find? (fun x => x.2.tokenHash = some (tokenHash token)) with
    | none =>
      have hnone := List.find?_eq_none.1 hfound _ (Table.mem_rows_iff.2 hflow)
      exact absurd (decide_eq_true htoken) hnone
    | some x =>
      obtain ⟨id, flow'⟩ := x
      have hrow := Table.get?_of_mem (List.mem_of_find?_eq_some hfound)
      have htoken' := List.find?_some hfound
      obtain rfl : id = flowId := hunique id flow' hrow (by simpa using htoken')
      obtain rfl : flow' = flow := Option.some.inj (hrow.symm.trans hflow)
      rfl
  have hload : loadFlow flowId now s = .ok flow := by
    simp only [loadFlow, hflow, found, ok_bind]
    rw [failIf_of_not fun h => h.elim (absurd hopen) (not_le.2 hnow)]
    rfl
  simp only [Identity.onboardingFlow, hfind, found, ok_bind, failIf_of_not (not_not.2 hpurpose),
    howner, hload, huser, failIf_of_not (not_not.2 hstatus)]
  rfl

theorem consumeRateLimit_of {key : String} (limit windowMs : Int)
    (h : ∀ row, s.rateLimits.get? key = some row → row.resetsAt ≤ now) :
    ∃ rateLimits, consumeRateLimit key limit windowMs now s = .ok { s with rateLimits } ∧
      ∀ key', key' ≠ key → rateLimits.get? key' = s.rateLimits.get? key' := by
  unfold consumeRateLimit
  dsimp only
  cases hrow : s.rateLimits.get? key with
  | none => exact ⟨_, rfl, fun key' hkey => Table.get?_set_of_ne _ _ hkey⟩
  | some row =>
    dsimp only
    rw [if_pos (h row hrow)]
    exact ⟨_, rfl, fun key' hkey => Table.get?_set_of_ne _ _ hkey⟩

/-- **An administrator can issue a flow for a pending account.** -/
theorem exists_createUserFlow (now : Int) {id adminId : String} {user admin : AccountRow}
    (hadmin : s.users.get? adminId = some admin) (hadministers : admin.administers = true)
    (huser : s.users.get? id = some user) (hpending : user.status = .pending)
    (hflowId : s.authFlows.get? draw.flowId = none)
    (htoken : ∀ id flow, s.authFlows.get? id = some flow →
      flow.tokenHash ≠ some (tokenHash draw.token)) :
    ∃ authFlows, createUserFlow (administrator adminId admin) id .activation draw now s =
        .ok { s with authFlows } ∧
      authFlows.get? draw.flowId = some
        { purpose := .activation, userId := some id, tokenHash := some (tokenHash draw.token)
          expiresAt := now + 24 * 60 * 60 * 1000 } := by
  have hstatus : ¬ user.status ≠ Onboarding.activation.requires := not_not.2 hpending
  have hnew : ∀ p : String → FlowRow → Bool,
      (consumeFlows p now s).authFlows.get? draw.flowId = none := by
    intro p
    show (s.authFlows.updateWhere _ _).get? _ = none
    rw [Table.get?_updateWhere, hflowId]
    rfl
  have hunused : ∀ p : String → FlowRow → Bool, ¬ ((some (tokenHash draw.token)).isSome = true ∧
      ((consumeFlows p now s).authFlows.rows.any fun x =>
        x.2.tokenHash = some (tokenHash draw.token)) = true) := by
    rintro p ⟨-, hany⟩
    obtain ⟨x, hx, hsame⟩ := List.any_eq_true.1 hany
    obtain ⟨flow, hflow, -, htoken'⟩ := flows_consumed (Table.get?_of_mem hx)
    exact htoken x.1 flow hflow (htoken'.symm.trans (of_decide_eq_true hsame))
  obtain ⟨s', hs'⟩ : ∃ s', createUserFlow (administrator adminId admin) id .activation draw now s =
      .ok s' := by
    simp only [createUserFlow, requireAdmin_of hadmin hadministers, huser, found, ok_bind,
      failIf_of_not hstatus, issueOnboarding, insertFlow, failIf_of_not (hunused _),
      Table.insert?_eq_some.2 ⟨hnew _, rfl⟩]
    exact ⟨_, rfl⟩
  have hissued := hs'
  simp only [createUserFlow, requireAdmin_of hadmin hadministers, huser, found, ok_bind,
    failIf_of_not hstatus] at hissued
  obtain ⟨-, rfl⟩ := insertFlow_eq_ok hissued
  exact ⟨_, hs', Table.get?_set_self _ _ _⟩

section Completion

variable {purpose : Onboarding} {token : String} {opened : OnboardingFlow}

theorem Opens.of_limits (h : Opens s now purpose token opened)
    (rateLimits : Table String RateLimitRow) :
    Opens { s with rateLimits } now purpose token opened :=
  ⟨h.row, h.hasToken, h.unique, h.hasPurpose, h.owner, h.unconsumed, h.unexpired, h.account,
    h.status⟩

/-- A challenge that is stored changes nothing else of the flow. -/
theorem Opens.challenged (h : Opens s now purpose token opened)
    (rateLimits : Table String RateLimitRow) (challenge : String) :
    Opens { s with
        rateLimits
        authFlows := s.authFlows.updateWhere (fun id _ => id = opened.flowId)
          fun flow => { flow with challenge := some challenge } }
      now purpose token
      { opened with flow := { opened.flow with challenge := some challenge } } where
  row := by
    dsimp only
    rw [Table.get?_updateWhere, h.row, Option.map_some, if_pos (decide_eq_true rfl)]
  hasToken := h.hasToken
  unique id flow' hflow' htoken := by
    obtain ⟨flow, hflow, -, hsame⟩ := flows_updateWhere
      (f := fun flow => { flow with challenge := some challenge }) (fun _ => ⟨rfl, rfl⟩) hflow'
    exact h.unique id flow hflow (hsame.symm.trans htoken)
  hasPurpose := h.hasPurpose
  owner := h.owner
  unconsumed := h.unconsumed
  unexpired := h.unexpired
  account := h.account
  status := h.status

theorem Opens.checkOptions (h : Opens s now purpose token opened)
    (hlimit : ∀ row, s.rateLimits.get? ("onboarding:" ++ tokenHash token) = some row →
      row.resetsAt ≤ now) :
    ∃ rateLimits, check (.onboardingOptions purpose token) now s =
        ({ s with rateLimits }, .ok (.onboardingOptions opened.flowId)) ∧
      ∀ key, key ≠ "onboarding:" ++ tokenHash token →
        rateLimits.get? key = s.rateLimits.get? key := by
  obtain ⟨rateLimits, hconsume, hother⟩ := consumeRateLimit_of 15 rateLimitWindow hlimit
  refine ⟨rateLimits, ?_, hother⟩
  simp only [check, limited, hconsume, proceed, (h.of_limits rateLimits).onboardingFlow]

theorem Opens.checkComplete (h : Opens s now purpose token opened)
    (hchallenge : opened.flow.unchallenged = false)
    (hlimit : ∀ row, s.rateLimits.get? ("onboarding-complete:" ++ tokenHash token) = some row →
      row.resetsAt ≤ now) :
    ∃ rateLimits, check (.onboardingComplete purpose token opened.flowId none) now s =
      ({ s with rateLimits }, .ok (.onboardingComplete purpose token opened none)) := by
  obtain ⟨rateLimits, hconsume, -⟩ := consumeRateLimit_of 15 rateLimitWindow hlimit
  have hsame : ¬ (opened.flowId ≠ opened.flowId ∨ opened.flow.unchallenged = true) := by
    rw [hchallenge]
    simp
  refine ⟨rateLimits, ?_⟩
  simp only [check, proceed, h.onboardingFlow, ok_bind, failIf_of_not hsame, pure, Except.pure,
    limited, hconsume]

theorem get?_updateWhere_key {t : Table String AccountRow} {f : AccountRow → AccountRow}
    {id : String} {user : AccountRow} (huser : t.get? id = some user) (id' : String) :
    (t.updateWhere (fun id' _ => id' = id) f).get? id' =
      if id' = id then some (f user) else t.get? id' := by
  rw [Table.get?_updateWhere]
  by_cases hid : id' = id
  · rw [if_pos hid, hid, huser, Option.map_some, if_pos (decide_eq_true rfl)]
  · rw [if_neg hid]
    cases t.get? id' with
    | none => rfl
    | some row => rw [Option.map_some, if_neg (by simpa using hid)]

/-- **The owner of an open flow can complete it** where the limit of the account is zero. -/
theorem Opens.exists_complete (h : Opens s now .activation token opened)
    (hprovisioned : Provisioned vault s) (hzero : opened.user.monthlyLimitBytes = some 0)
    (htoken : s.sessions.get? (tokenHash draw.token) = none) (hash : String)
    (hfresh : vault.ReadsFresh draw.secrets) :
    ∃ done s', onboardingCompleteCommit vault .activation token opened none none hash draw now s =
        .ok (done, s') ∧
      ∃ user, s'.users.get? opened.userId = some user ∧ user.status = .active := by
  have hinactive : opened.user.status ≠ .active := by
    rw [h.status]
    decide
  have hopen : ¬ ((s.authFlows.get? opened.flowId).all fun flow => flow.consumedAt.isSome) =
      true := by
    rw [h.row, Option.all_some, h.unconsumed]
    decide
  have hpasskey : ¬ ((none : Option String).isSome = true ∧
      (none : Option Registration).isNone = true) := fun h => by cases h.1
  have hget := get?_updateWhere_key (f := fun user => { user with
    status := .active, version := opened.user.version + 1 }) h.account
  obtain ⟨s₁, hrefresh⟩ := exists_refreshPolicy now
    (initializeSecrets draw opened.userId
      { consumeFlows (fun id' _ => id' = opened.flowId) now s with
        passwords := s.passwords.set opened.userId ⟨hash, now⟩
        users := s.users.updateWhere (fun id _ => id = opened.userId) fun user =>
          { user with status := .active, version := opened.user.version + 1 } })
    hprovisioned (unused_initialized hprovisioned.unused)
    (reads_initialized hprovisioned.reads hfresh opened.userId)
    (policyState_initialized opened.userId)
    (granted_zero { opened.user with
      status := .active, version := opened.user.version + 1 } h.account hinactive hzero hget)
    (generationOf_initialized opened.userId) hfresh
  obtain ⟨s₂, hissue⟩ : ∃ s₂, issueSession draw.token opened.userId now
      (consumeFlows (fun _ flow => flow.userId = some opened.userId) now s₁) = .ok s₂ := by
    obtain ⟨panel, rfl⟩ := refreshPolicy_eq_ok hrefresh
    simp only [issueSession, consumeFlows, initializeSecrets,
      Table.insert?_eq_some.2 ⟨htoken, rfl⟩, found, ok_bind]
    exact ⟨_, rfl⟩
  have hresult : onboardingCompleteCommit vault .activation token opened none none hash draw now s =
      .ok (.onboarded .activation opened.flowId opened.userId (tokenHash draw.token), s₂) := by
    simp only [onboardingCompleteCommit, failIf_of_not hpasskey, h.onboardingFlow, ok_bind,
      failIf_of_not (not_not.2 (rfl : opened.flow.challenge = opened.flow.challenge)), consumeFlow,
      failIf_of_not hopen, pure, Except.pure]
    rw [if_neg (by decide)]
    simp only [insertOnboardingKey, pure, Except.pure, ok_bind, consumeFlows]
    simp only [consumeFlows] at hrefresh hissue
    simp only [hrefresh, hissue, ok_bind]
    rfl
  refine ⟨_, _, hresult, ?_⟩
  obtain ⟨current, hcurrent, -, -, -, _, _, rfl⟩ := onboardingCompleteCommit_eq_ok hresult
  exact ⟨_, (get?_updateWhere_key h.account opened.userId).trans (if_pos rfl), rfl⟩

end Completion

/-! ## Which accounts can become active -/

theorem LifeCycle.exists_administrator (hw : LifeCycle vault w) {id : String} {user : AccountRow}
    (huser : w.tables.users.get? id = some user) : w.tables.Administered := by
  rcases hw.administered with hempty | hadministered
  · have hmem := Table.mem_rows_iff.2 huser
    rw [hempty] at hmem
    cases hmem
  · exact hadministered

/-- **An account with a password is enabled again.** -/
theorem revivable_of_password {draws : List Draw} (hw : LifeCycle vault w) {id : String}
    {user : AccountRow} (huser : w.tables.users.get? id = some user)
    (hinactive : user.status ≠ .active) (hpassword : (w.tables.passwords.get? id).isSome)
    (hdraws : NewDraws vault w (draw :: draws)) (since : Int) : Revivable vault w since id := by
  obtain ⟨adminId, admin, hadmin, hadministers⟩ := hw.exists_administrator huser
  obtain ⟨s', hs'⟩ := exists_zeroLimit since hw.provisioned hadmin hadministers huser
    hinactive (.inr ⟨rfl, hpassword⟩) (hdraws.reads _ List.mem_cons_self)
  refine ⟨_, runs_perform (.updateUser (administrator adminId admin) id
    (zeroLimit user.version (some true))) id rfl rfl hadmin hadministers le_rfl hdraws hs', ?_⟩
  obtain ⟨user', huser', -, -, -, panel, rfl⟩ := updateUser_eq_ok hs'
  exact ⟨_, Table.get?_set_self _ _ _, rfl⟩

theorem Revivable.of_runs {since : Int} {id : String} (h : Revivable vault w' since id)
    (hruns : Runs vault (Reviving vault since id) w w') : Revivable vault w since id := by
  obtain ⟨w'', hruns', hactive⟩ := h
  exact ⟨w'', hruns.trans hruns', hactive⟩

/-- The keys of the two limits of a flow are different. -/
theorem onboarding_keys_ne (hash : String) :
    "onboarding-complete:" ++ hash ≠ "onboarding:" ++ hash := by
  intro h
  have hchars := congrArg String.toList h
  simp at hchars

/-- The limits of a flow have ended. -/
structure LimitsEnded (s : Accounts) (token : String) (now : Int) : Prop where
  options : ∀ row, s.rateLimits.get? ("onboarding:" ++ tokenHash token) = some row →
    row.resetsAt ≤ now
  complete : ∀ row, s.rateLimits.get? ("onboarding-complete:" ++ tokenHash token) = some row →
    row.resetsAt ≤ now

theorem exists_limitsEnded (s : Accounts) (token : String) (since : Int) :
    ∃ now, since ≤ now ∧ LimitsEnded s token now := by
  refine ⟨max since (max
    (((s.rateLimits.get? ("onboarding:" ++ tokenHash token)).map RateLimitRow.resetsAt).getD 0)
    (((s.rateLimits.get? ("onboarding-complete:" ++ tokenHash token)).map
      RateLimitRow.resetsAt).getD 0)), le_max_left _ _, fun row hrow => ?_, fun row hrow => ?_⟩
  · rw [hrow]
    exact (le_max_left _ _).trans (le_max_right _ _)
  · rw [hrow]
    exact (le_max_right _ _).trans (le_max_right _ _)

section Completion

variable {token : String} {opened : OnboardingFlow} {since : Int} {draws : List Draw}

/-- The owner answers the challenge. -/
theorem revivable_of_challenge (hw : LifeCycle vault w)
    (h : Opens w.tables now .activation token opened)
    (hzero : opened.user.monthlyLimitBytes = some 0)
    (hlimit : ∀ row, w.tables.rateLimits.get? ("onboarding-complete:" ++ tokenHash token) =
      some row → row.resetsAt ≤ now)
    (hchallenge : opened.flow.unchallenged = false) (hdraws : NewDraws vault w (draw :: draws))
    (hsince : since ≤ now) : Revivable vault w since opened.userId := by
  obtain ⟨request, hfree⟩ := hw.idle
  obtain ⟨rateLimits, hcheck⟩ := h.checkComplete hchallenge hlimit
  have htoken : w.tables.sessions.get? (tokenHash draw.token) = none := by
    cases hrow : w.tables.sessions.get? (tokenHash draw.token) with
    | none => rfl
    | some row =>
      exact absurd (hw.sessions _ row hrow) (hdraws.newTokens _ List.mem_cons_self)
  obtain ⟨done, s', hcommit, hactive⟩ := (h.of_limits rateLimits).exists_complete
    (hw.provisioned.of_granted rfl fun id => Iff.rfl) hzero htoken "hash"
    (hdraws.reads _ List.mem_cons_self)
  have hruns := runs_request ⟨"hash", true, "", none, none⟩ rfl hsince
    (hfree request le_rfl) hdraws rfl rfl h.row h.owner h.hasToken hcheck rfl hcommit
  exact ⟨_, hruns, hactive⟩

/-- The owner asks for a challenge and answers it. -/
theorem revivable_of_flow {draw' : Draw} (hw : LifeCycle vault w)
    (h : Opens w.tables now .activation token opened)
    (hzero : opened.user.monthlyLimitBytes = some 0) (hlimits : LimitsEnded w.tables token now)
    (hdraws : NewDraws vault w (draw :: draw' :: draws)) (hsince : since ≤ now) :
    Revivable vault w since opened.userId := by
  obtain ⟨request, hfree⟩ := hw.idle
  obtain ⟨rateLimits, hcheck, hother⟩ := h.checkOptions hlimits.options
  have hcommit : onboardingOptionsCommit opened.flowId "challenge" { w.tables with rateLimits } =
      .ok (.quiet, _) := rfl
  have hruns := runs_request ⟨"", true, "challenge", none, none⟩ rfl hsince
    (hfree request le_rfl) hdraws rfl rfl h.row h.owner h.hasToken hcheck rfl hcommit
  have hchallenged := h.challenged rateLimits "challenge"
  have hrevivable := revivable_of_challenge (hw.runs (hruns.mono fun _ _ he => he.toAllowed))
    hchallenged hzero
    (fun row hrow => hlimits.complete row
      ((hother _ (onboarding_keys_ne (tokenHash token))).symm.trans hrow))
    rfl hdraws.after hsince
  exact hrevivable.of_runs hruns

/-- An administrator sends a flow to a pending account whose limit is zero. -/
theorem revivable_of_zero {d₁ d₂ d₃ : Draw} (hw : LifeCycle vault w) {id : String}
    {user : AccountRow} (huser : w.tables.users.get? id = some user)
    (hpending : user.status = .pending) (hzero : user.monthlyLimitBytes = some 0)
    (hlimits : LimitsEnded w.tables d₁.token now) (hdraws : NewDraws vault w [d₁, d₂, d₃])
    (hsince : since ≤ now) : Revivable vault w since id := by
  obtain ⟨adminId, admin, hadmin, hadministers⟩ := hw.exists_administrator huser
  have hflowId : w.tables.authFlows.get? d₁.flowId = none := by
    cases hrow : w.tables.authFlows.get? d₁.flowId with
    | none => rfl
    | some flow =>
      exact absurd (hw.flows _ _ hrow).1 (hdraws.newFlowIds _ List.mem_cons_self)
  obtain ⟨authFlows, hcall, hflow⟩ := exists_createUserFlow now hadmin hadministers huser
    hpending hflowId fun id flow hrow htoken =>
      absurd ((hw.flows _ _ hrow).2 _ htoken) (hdraws.newTokens _ List.mem_cons_self)
  have hperform : perform vault (.createUserFlow (administrator adminId admin) id .activation) d₁
      now w.tables = .ok (.quiet, { w.tables with authFlows }) := by
    rw [perform, hcall]
    rfl
  have hruns := runs_perform _ id rfl rfl hadmin hadministers hsince hdraws hperform
  have hw' := hw.runs (hruns.mono fun _ _ he => he.toAllowed)
  have hopens : Opens { w.tables with authFlows } now .activation d₁.token
      ⟨d₁.flowId, _, id, user⟩ :=
    { row := hflow
      hasToken := rfl
      unique := fun id' flow' hflow' htoken => hw'.unique _ _ _ _ _ hflow' hflow htoken rfl
      hasPurpose := rfl
      owner := rfl
      unconsumed := rfl
      unexpired := lt_add_of_pos_right now (by decide)
      account := huser
      status := hpending }
  have hrevivable := revivable_of_flow hw' hopens hzero ⟨hlimits.options, hlimits.complete⟩
    hdraws.after hsince
  exact hrevivable.of_runs hruns

/-- **A pending account is sent a flow and completes it.** -/
theorem revivable_of_pending {d₁ d₂ d₃ d₄ : Draw} (hw : LifeCycle vault w) {id : String}
    {user : AccountRow} (huser : w.tables.users.get? id = some user)
    (hpending : user.status = .pending) (hdraws : NewDraws vault w [d₁, d₂, d₃, d₄])
    (since : Int) : Revivable vault w since id := by
  have hinactive : user.status ≠ .active := by
    rw [hpending]
    decide
  obtain ⟨adminId, admin, hadmin, hadministers⟩ := hw.exists_administrator huser
  obtain ⟨now, hsince, hlimits⟩ := exists_limitsEnded w.tables d₂.token since
  obtain ⟨s', hs'⟩ := exists_zeroLimit now hw.provisioned hadmin hadministers huser
    hinactive (.inl rfl) (hdraws.reads _ List.mem_cons_self)
  have hruns := runs_perform (.updateUser (administrator adminId admin) id
    (zeroLimit user.version none)) id rfl rfl hadmin hadministers hsince hdraws hs'
  have hw' := hw.runs (hruns.mono fun _ _ he => he.toAllowed)
  obtain ⟨user', huser', -, -, -, panel, rfl⟩ := updateUser_eq_ok hs'
  obtain rfl := Option.some.inj (huser.symm.trans huser')
  have hrevivable := revivable_of_zero hw' (Table.get?_set_self _ _ _) hpending rfl
    ⟨hlimits.options, hlimits.complete⟩ hdraws.after hsince
  exact hrevivable.of_runs hruns

end Completion

/-! ## Runs that disable no account without a password -/

/-- Every disabled account has a password. -/
def Accounts.Careful (s : Accounts) : Prop :=
  ∀ id user, s.users.get? id = some user → user.status = .disabled → (s.passwords.get? id).isSome

theorem UserChanges.status_eq_disabled {changes : UserChanges}
    (h : changes.status = some .disabled) : changes.active = some false := by
  unfold UserChanges.status at h
  cases hactive : changes.active with
  | none =>
    rw [hactive] at h
    cases h
  | some active =>
    cases active with
    | false => rfl
    | true =>
      rw [hactive] at h
      cases h

theorem Accounts.Careful.accountStep (h : w.tables.Careful) (hspares : w.Spares e)
    (hstep : AccountStep w e s') : s'.Careful := by
  intro id user huser hdisabled
  cases hstep with
  | same users passwords =>
    rw [users] at huser
    rw [passwords]
    exact h id user huser hdisabled
  | @setup id' row password empty active users passwords =>
    rw [users, Table.get?_set] at huser
    split_ifs at huser with hid
    · obtain rfl := Option.some.inj huser
      rw [active] at hdisabled
      cases hdisabled
    · have hmem := Table.mem_rows_iff.2 huser
      rw [empty] at hmem
      cases hmem
  | created new pending users passwords =>
    rw [users, Table.get?_set] at huser
    rw [passwords]
    split_ifs at huser with hid
    · obtain rfl := Option.some.inj huser
      rw [pending] at hdisabled
      cases hdisabled
    · exact h id user huser hdisabled
  | @updated principal id' changes draw now user' event account activated users passwords =>
    rw [users, Table.get?_set] at huser
    rw [passwords]
    split_ifs at huser with hid
    · obtain rfl := Option.some.inj huser
      subst event hid
      have hstatus : changes.status.getD user'.status = .disabled := hdisabled
      cases hchanges : changes.status with
      | none =>
        rw [hchanges] at hstatus
        exact h _ user' account hstatus
      | some status =>
        rw [hchanges] at hstatus
        obtain rfl : status = .disabled := hstatus
        exact hspares (UserChanges.status_eq_disabled hchanges)
    · exact h id user huser hdisabled
  | @completed purpose id' user' version password account status users passwords =>
    rw [passwords, Table.get?_set]
    split_ifs with hid
    · rfl
    · rw [users, Table.get?_updateWhere] at huser
      obtain ⟨row, hrow, heq⟩ := Option.map_eq_some_iff.1 huser
      rw [if_neg (by simpa using hid)] at heq
      rw [heq] at hrow
      exact h id user hrow hdisabled

theorem Accounts.Careful.step (hw : LifeCycle vault w) (he : Allowed vault w e)
    (hspares : w.Spares e) (h : w.tables.Careful) : (w.step vault e).tables.Careful := by
  have hstepped := w.stepped vault e
  generalize w.step vault e = w' at hstepped ⊢
  cases hstepped with
  | committed htransaction =>
    exact h.accountStep hspares (Identity.accountStep hw he.lifeCycle htransaction)
  | unchanged htables _ _ _ =>
    obtain ⟨rateLimits, rfl⟩ := htables
    exact h

/-! ## Which accounts can become active -/

section Accounts

variable {id : String} {user : AccountRow} {d₁ d₂ d₃ d₄ : Draw}

/-- A disabled account without a password is a dead end. -/
theorem pending_or_password_of_activatable (hw : LifeCycle vault w)
    (huser : w.tables.users.get? id = some user) (hinactive : user.status ≠ .active)
    {since : Int} (h : Activatable vault w since id) :
    user.status = .pending ∨ (w.tables.passwords.get? id).isSome := by
  by_contra hneither
  obtain ⟨hpending, hpassword⟩ := not_or.1 hneither
  have hdisabled : user.status = .disabled := by
    cases hstatus : user.status with
    | pending => exact absurd hstatus hpending
    | active => exact absurd hstatus hinactive
    | disabled => rfl
  have hdead : DeadEnd w.tables id :=
    ⟨⟨user, huser, hdisabled⟩, Option.not_isSome_iff_eq_none.1 hpassword⟩
  exact hdead.not_activatable hw since h

/-- **An account can become active if and only if it is pending or has a password.** -/
theorem revivable_iff (hw : LifeCycle vault w) (huser : w.tables.users.get? id = some user)
    (hinactive : user.status ≠ .active) (hdraws : NewDraws vault w [d₁, d₂, d₃, d₄])
    (since : Int) :
    Revivable vault w since id ↔ user.status = .pending ∨ (w.tables.passwords.get? id).isSome := by
  constructor
  · exact fun h => pending_or_password_of_activatable hw huser hinactive h.activatable
  · rintro (hpending | hpassword)
    · exact revivable_of_pending hw huser hpending hdraws since
    · exact revivable_of_password hw huser hinactive hpassword hdraws since

theorem careful_revivable
    (h : Runs vault (fun w e => Allowed vault w e ∧ w.Spares e) (.start .empty) w)
    (huser : w.tables.users.get? id = some user) (hinactive : user.status ≠ .active)
    (hdraws : NewDraws vault w [d₁, d₂, d₃, d₄]) (since : Int) : Revivable vault w since id := by
  have hw : LifeCycle vault w ∧ w.tables.Careful :=
    h.induction (I := fun w => LifeCycle vault w ∧ w.tables.Careful)
      ⟨lifeCycle_start, fun _ _ h => by cases h⟩
      fun _ _ hw he => ⟨hw.1.step he.1, hw.2.step hw.1 he.1 he.2⟩
  rw [revivable_iff hw.1 huser hinactive hdraws]
  cases hstatus : user.status with
  | pending => exact .inl rfl
  | active => exact absurd hstatus hinactive
  | disabled => exact .inr (hw.2 id user huser hstatus)

end Accounts

/-- **Dead ends.** In every state that the life cycle of accounts leads to, an active administrator
and the owner of an account that is not active can make it active if it is pending or has a
password, and otherwise nobody can. Where no account is disabled that has no password, every account
can be made active. -/
theorem accounts_revivable (vault : Vault) :
    (∀ w, Runs vault (Allowed vault) (.start .empty) w →
      ∀ id user, w.tables.users.get? id = some user → user.status ≠ .active →
      ∀ d₁ d₂ d₃ d₄, NewDraws vault w [d₁, d₂, d₃, d₄] → ∀ since,
        (Revivable vault w since id ↔
          user.status = .pending ∨ (w.tables.passwords.get? id).isSome) ∧
        (Activatable vault w since id ↔
          user.status = .pending ∨ (w.tables.passwords.get? id).isSome)) ∧
    (∀ w, Runs vault (fun w e => Allowed vault w e ∧ w.Spares e) (.start .empty) w →
      ∀ id user, w.tables.users.get? id = some user → user.status ≠ .active →
      ∀ d₁ d₂ d₃ d₄, NewDraws vault w [d₁, d₂, d₃, d₄] → ∀ since,
        Revivable vault w since id) := by
  constructor
  · intro w hruns id user huser hinactive d₁ d₂ d₃ d₄ hdraws since
    have hw := lifeCycle_start.runs hruns
    have hiff := revivable_iff hw huser hinactive hdraws since
    exact ⟨hiff, pending_or_password_of_activatable hw huser hinactive,
      fun h => (hiff.2 h).activatable⟩
  · intro w hruns id user huser hinactive d₁ d₂ d₃ d₄ hdraws since
    exact careful_revivable hruns huser hinactive hdraws since

/-! ## A guest who is disabled too early -/

def guestDraw : Draw where
  userId := "guest"
  flowId := "flow"
  token := "invitation"
  secrets _ := ""

/-- The administrator that setup creates. -/
def root : Principal := administrator "root" ⟨"root", .admin, .active, none, 1, 0⟩

/-- The panel is set up, and a guest is invited. -/
def invited : World :=
  (((World.start .empty).step exampleVault (.arrive 0 (.setupAdministrator "root") 0)).step
    exampleVault (.resume 0 (exampleAnswer "hash") (exampleDraw "first" "") 0)).step
    exampleVault (.perform (.createUser root "guest" .user none) guestDraw 1)

/-- The guest is disabled before the invitation is accepted. -/
def stranded : World :=
  invited.step exampleVault
    (.perform (.updateUser root "guest" ⟨1, none, some false, none⟩)
      (exampleDraw "second" "second") 2)

theorem World.fresh_perform {call : SyncCall} (hflowId : draw.flowId ∉ w.flowIds)
    (htoken : tokenHash draw.token ∉ w.tokens) : w.Fresh vault (.perform call draw now) := by
  intro draw' result h
  rw [← (Prod.mk.inj (Option.some.inj h)).1]
  exact ⟨hflowId, htoken⟩

theorem exampleVault_reads (fresh : String → String) : exampleVault.ReadsFresh fresh :=
  fun _ => rfl

theorem invited_runs : Runs exampleVault (fun w e => Allowed exampleVault w e ∧ w.Spares e)
    (.start .empty) invited := by
  refine .step _ (.step _ (.step _ .refl ⟨⟨rfl, ?_, ?_⟩, trivial⟩) ⟨⟨rfl, ?_, ?_⟩, trivial⟩)
    ⟨⟨rfl, ?_, ?_⟩, trivial⟩
  · exact World.fresh_arrive _ _ _ _ _
  · exact fun _ _ _ => exampleVault_reads _
  · exact World.fresh_resume (by decide +kernel) (by decide +kernel)
  · exact fun _ _ _ => exampleVault_reads _
  · exact World.fresh_perform (by decide +kernel) (by decide +kernel)
  · exact fun _ _ _ => exampleVault_reads _

theorem stranded_runs : Runs exampleVault (Allowed exampleVault) (.start .empty) stranded := by
  refine .step _ (invited_runs.mono fun _ _ h => h.1) ⟨rfl, ?_, fun _ _ _ => exampleVault_reads _⟩
  exact World.fresh_perform (by decide +kernel) (by decide +kernel)

/-- The invited guest can become active. -/
theorem invited_guest_revivable : Revivable exampleVault invited 2 "guest" := by
  refine (accounts_revivable exampleVault).2 invited invited_runs "guest"
    ⟨"guest", .user, .pending, none, 1, 1⟩ (by decide +kernel) (by decide)
    (exampleDraw "a" "a") (exampleDraw "b" "b") (exampleDraw "c" "c") (exampleDraw "d" "d") ?_ 2
  exact
    { flowIds := by decide +kernel
      newFlowIds := by decide +kernel
      tokens := by decide +kernel
      newTokens := by decide +kernel
      reads := fun _ _ => exampleVault_reads _ }

/-- **A guest who never becomes active again.** -/
theorem stranded_guest :
    ∃ vault w id user since, Runs vault (Allowed vault) (.start .empty) w ∧
      w.tables.users.get? id = some user ∧ user.status ≠ .active ∧
      ¬ Revivable vault w since id ∧ ¬ Activatable vault w since id := by
  have hdead : DeadEnd stranded.tables "guest" :=
    ⟨⟨⟨"guest", .user, .disabled, none, 2, 1⟩, by decide +kernel, rfl⟩, by decide +kernel⟩
  obtain ⟨user, huser, hdisabled⟩ := hdead.disabled
  have hnot := hdead.not_activatable (lifeCycle_start.runs stranded_runs) 0
  refine ⟨exampleVault, stranded, "guest", user, 0, stranded_runs, huser, ?_,
    fun h => hnot h.activatable, hnot⟩
  rw [hdisabled]
  decide

end Bifurcation.Panel.Identity
