import Bifurcation.Panel.IdentityRuns

/-!
# Flows are used once, and revocation wins

A flow is completed by one transaction that loads it, consumes it and writes what it is for, so
of all requests that hold it one succeeds. A login compares, in the transaction that issues its
session, the account and the credential with what it read before the wait. Disabling an account,
changing its password and recovering it delete its sessions; a request that was let through by
one of them finds no session when it commits.

Main results: `logged` (what the tables and the log say about each other in every run) and
`logins_one_shot`.
-/

namespace Bifurcation.Panel.Identity

variable {vault : Vault} {w w' : World} {e : Event}

/-! ## The log -/

/-- The tables and the log of a run. -/
structure Logged (w : World) : Prop where
  drawn : ∀ id flow, w.tables.authFlows.get? id = some flow → id ∈ w.flowIds
  completed : ∀ done ∈ w.log, ∀ id, done.flow = some id → id ∈ w.flowIds ∧
    ∀ flow, w.tables.authFlows.get? id = some flow → flow.consumedAt ≠ none
  once : (w.log.filterMap Done.flow).Nodup
  issued : ∀ hash row, w.tables.sessions.get? hash = some row →
    ∃ done ∈ w.log, done.session = some (hash, row.userId)
  tokens : ∀ done ∈ w.log, ∀ hash userId, done.session = some (hash, userId) → hash ∈ w.tokens
  owner : ∀ done ∈ w.log, ∀ done' ∈ w.log, ∀ hash userId userId',
    done.session = some (hash, userId) → done'.session = some (hash, userId') → userId = userId'
  reads : ∀ request flight, w.flights request = some flight → flight.held.ReadAt flight.checked

theorem logged_start (panel : Database) : Logged (.start panel) where
  drawn _ _ h := by cases h
  completed _ h := by cases h
  once := List.nodup_nil
  issued _ _ h := by cases h
  tokens _ h := by cases h
  owner _ h := by cases h
  reads _ _ h := by cases h

/-- A request that waits read what it holds when it was checked. -/
theorem reads_flightsAfter
    (h : ∀ request flight, w.flights request = some flight → flight.held.ReadAt flight.checked) :
    ∀ request flight, w.flightsAfter e request = some flight →
      flight.held.ReadAt flight.checked := by
  intro request flight hflight
  cases e with
  | arrive r call now =>
    simp only [World.flightsAfter] at hflight
    split_ifs at hflight
    · obtain ⟨held, hheld, rfl⟩ := Option.map_eq_some_iff.1 hflight
      cases hcheck : (check call now w.tables).2 with
      | error err => simp [hcheck, Except.toOption] at hheld
      | ok held' =>
        simp only [hcheck, Except.toOption, Option.some.injEq] at hheld
        rw [← hheld]
        exact check_reads hcheck
    · exact h request flight hflight
  | resume r answer draw now =>
    simp only [World.flightsAfter] at hflight
    split_ifs at hflight
    exact h request flight hflight
  | perform call draw now => exact h request flight hflight

/-- Rate limits are no part of what the log speaks about. -/
theorem Logged.unchanged {s' : Accounts} {flowIds tokens : List String}
    {flights : ℕ → Option Flight} (h : Logged w) (hsame : SameButLimits w.tables s')
    (hflowIds : ∀ id ∈ w.flowIds, id ∈ flowIds) (htokens : ∀ hash ∈ w.tokens, hash ∈ tokens)
    (hreads : ∀ request flight, flights request = some flight →
      flight.held.ReadAt flight.checked) :
    Logged { tables := s', flights, flowIds, tokens, log := w.log } := by
  obtain ⟨rateLimits, rfl⟩ := hsame
  exact
    { drawn := fun id flow hflow => hflowIds id (h.drawn id flow hflow)
      completed := fun done hdone id hid =>
        ⟨hflowIds id (h.completed done hdone id hid).1, (h.completed done hdone id hid).2⟩
      once := h.once
      issued := h.issued
      tokens := fun done hdone hash userId hsession =>
        htokens hash (h.tokens done hdone hash userId hsession)
      owner := h.owner
      reads := hreads }

/-- **One committed call.** The drawn id and token are new, so what the log says of the others
stays true. -/
theorem Logged.committed {draw : Draw} {done : Done} {s' : Accounts}
    {flights : ℕ → Option Flight} (h : Logged w) (heffect : Effect draw done w.tables s')
    (hflowId : draw.flowId ∉ w.flowIds) (htoken : tokenHash draw.token ∉ w.tokens)
    (hreads : ∀ request flight, flights request = some flight →
      flight.held.ReadAt flight.checked) :
    Logged
      { tables := s', flights, flowIds := draw.flowId :: w.flowIds
        tokens := tokenHash draw.token :: w.tokens, log := done :: w.log } where
  drawn := by
    intro id flow hflow
    obtain rfl | ⟨old, hold, -, -⟩ := heffect.flows id flow hflow
    · exact List.mem_cons_self
    · exact List.mem_cons_of_mem _ (h.drawn id old hold)
  completed := by
    intro past hpast id hid
    obtain rfl | hpast := List.mem_cons.1 hpast
    · obtain ⟨⟨old, hold, -⟩, hconsumed⟩ := heffect.completes id hid
      exact ⟨List.mem_cons_of_mem _ (h.drawn id old hold), hconsumed⟩
    · obtain ⟨hdrawn, hconsumed⟩ := h.completed past hpast id hid
      refine ⟨List.mem_cons_of_mem _ hdrawn, fun flow hflow => ?_⟩
      obtain rfl | ⟨old, hold, -, hdone⟩ := heffect.flows id flow hflow
      · exact absurd hdrawn hflowId
      · exact hdone (hconsumed old hold)
  once := by
    cases hflow : done.flow with
    | none =>
      show (List.filterMap Done.flow (done :: w.log)).Nodup
      rw [List.filterMap_cons_none hflow]
      exact h.once
    | some id =>
      show (List.filterMap Done.flow (done :: w.log)).Nodup
      rw [List.filterMap_cons_some hflow]
      refine List.nodup_cons.2 ⟨fun hmem => ?_, h.once⟩
      -- The flow was open, and a flow of the log is consumed.
      obtain ⟨past, hpast, hid⟩ := List.mem_filterMap.1 hmem
      obtain ⟨⟨old, hold, hopen⟩, -⟩ := heffect.completes id hflow
      exact (h.completed past hpast id hid).2 old hold hopen
  issued := by
    intro hash row hrow
    obtain hdone | ⟨old, hold, howner⟩ := heffect.sessions hash row hrow
    · exact ⟨done, List.mem_cons_self, hdone⟩
    · obtain ⟨past, hpast, hsession⟩ := h.issued hash old hold
      exact ⟨past, List.mem_cons_of_mem _ hpast, by rw [hsession, howner]⟩
  tokens := by
    intro past hpast hash userId hsession
    obtain rfl | hpast := List.mem_cons.1 hpast
    · rw [heffect.issued hash userId hsession]
      exact List.mem_cons_self
    · exact List.mem_cons_of_mem _ (h.tokens past hpast hash userId hsession)
  owner := by
    intro past hpast past' hpast' hash userId userId' hsession hsession'
    obtain hlast | hold := List.mem_cons.1 hpast <;>
      obtain hlast' | hold' := List.mem_cons.1 hpast'
    · rw [hlast] at hsession
      rw [hlast', hsession] at hsession'
      exact (Prod.mk.inj (Option.some.inj hsession')).2
    · rw [hlast] at hsession
      have hnew := h.tokens past' hold' hash userId' hsession'
      rw [heffect.issued hash userId hsession] at hnew
      exact absurd hnew htoken
    · rw [hlast'] at hsession'
      have hnew := h.tokens past hold hash userId hsession
      rw [heffect.issued hash userId' hsession'] at hnew
      exact absurd hnew htoken
    · exact h.owner past hold past' hold' hash userId userId' hsession hsession'
  reads := hreads

theorem Logged.step (h : Logged w) (hfresh : w.Fresh vault e) : Logged (w.step vault e) := by
  have hstepped := w.stepped vault e
  generalize w.step vault e = w' at hstepped ⊢
  cases hstepped with
  | committed htransaction =>
    obtain ⟨hflowId, htoken⟩ := hfresh _ _ htransaction
    exact h.committed (World.transaction_effect htransaction) hflowId htoken
      (reads_flightsAfter h.reads)
  | unchanged htables hflowIds htokens _ =>
    exact h.unchanged htables hflowIds htokens (reads_flightsAfter h.reads)

/-- **The log of every run.** -/
theorem logged (h : Reachable vault w) : Logged w :=
  h.induction logged_start fun _ _ hw hfresh => hw.step hfresh

/-! ## Sessions that are gone -/

/-- A session that was deleted does not come back: its token is not drawn again. -/
theorem session_gone_step {hash : String} (hfresh : w.Fresh vault e) (htoken : hash ∈ w.tokens)
    (hgone : w.tables.sessions.get? hash = none) :
    (w.step vault e).tables.sessions.get? hash = none ∧ hash ∈ (w.step vault e).tokens := by
  have hstepped := w.stepped vault e
  generalize w.step vault e = w' at hstepped ⊢
  cases hstepped with
  | @committed draw done s' htransaction =>
    obtain ⟨-, hnew⟩ := hfresh _ _ htransaction
    have heffect := World.transaction_effect htransaction
    refine ⟨?_, List.mem_cons_of_mem _ htoken⟩
    cases hrow : s'.sessions.get? hash with
    | none => rfl
    | some row =>
      obtain hdone | ⟨old, hold, -⟩ := heffect.sessions hash row hrow
      · rw [heffect.issued hash row.userId hdone] at htoken
        exact absurd htoken hnew
      · rw [hgone] at hold
        cases hold
  | unchanged htables _ htokens _ =>
    obtain ⟨rateLimits, rfl⟩ := htables
    exact ⟨hgone, htokens hash htoken⟩

theorem session_gone_leads {hash : String} (h : Leads vault w w') (htoken : hash ∈ w.tokens)
    (hgone : w.tables.sessions.get? hash = none) : w'.tables.sessions.get? hash = none := by
  suffices hboth : w'.tables.sessions.get? hash = none ∧ hash ∈ w'.tokens from hboth.1
  induction h with
  | refl => exact ⟨hgone, htoken⟩
  | step e _ hfresh ih => exact session_gone_step hfresh ih.2 ih.1

/-- A revocation deletes the sessions its user had. -/
theorem session_gone_of_revokes {done past : Done} {userId hash : String} (hlogged : Logged w)
    (hfresh : w.Fresh vault e) (hdoes : w.does vault e = some done)
    (hrevokes : done.revokes = some userId) (hpast : past ∈ w.log)
    (hsession : past.session = some (hash, userId)) :
    (w.step vault e).tables.sessions.get? hash = none := by
  obtain ⟨draw, s', htransaction⟩ := World.does_eq_some hdoes
  obtain ⟨-, hnew⟩ := hfresh _ _ htransaction
  have heffect := World.transaction_effect htransaction
  have htoken := hlogged.tokens past hpast hash userId hsession
  have hstep : (w.step vault e).tables = s' := by simp [World.step, htransaction, World.settle,
    Except.toOption]
  rw [hstep]
  cases hrow : s'.sessions.get? hash with
  | none => rfl
  | some row =>
    exfalso
    apply hnew
    obtain hdone | ⟨old, hold, howner⟩ := heffect.sessions hash row hrow
    · rw [← heffect.issued hash row.userId hdone]
      exact htoken
    · obtain ⟨past', hpast', hsession'⟩ := hlogged.issued hash old hold
      have hsame := hlogged.owner past' hpast' past hpast hash old.userId userId hsession' hsession
      have hdone := heffect.revokes userId hrevokes hash row hrow (howner.trans hsame)
      rw [← heffect.issued hash userId hdone]
      exact htoken

/-- The session a held call was let through by, and needs when it commits. -/
def Held.session : Held → Option String
  | .reauthenticatePassword principal => principal.sessionHash
  | .changePassword principal => principal.sessionHash
  | .newPasskeyVerify principal _ _ => principal.sessionHash
  | .authenticationVerify _ flow _ _ principal =>
    if flow.purpose = .reauth then principal.bind Principal.sessionHash else none
  | _ => none

/-- A session that neither authenticates a request nor completes one that waits. -/
structure Powerless (vault : Vault) (w : World) (hash : String) : Prop where
  authenticate : ∀ token now, tokenHash token = hash → ∀ result,
    authenticate (.cookie (some token)) now w.tables ≠ .ok result
  complete : ∀ held answer draw now, held.session = some hash → ∀ result,
    commit vault held answer draw now w.tables ≠ .ok result

theorem powerless_of_gone {hash : String} (hgone : w.tables.sessions.get? hash = none) :
    Powerless vault w hash where
  authenticate := by
    intro token now htoken result h
    simp only [Identity.authenticate, bind_eq_ok, found_eq_ok, Option.some.injEq] at h
    obtain ⟨_, rfl, session, hsession, -⟩ := h
    rw [htoken, hgone] at hsession
    cases hsession
  complete := by
    intro held answer draw now hheld result h
    obtain ⟨done, s'⟩ := result
    have hnone : ∀ principal : Principal, principal.sessionHash = some hash →
        sessionOf principal w.tables = none := by
      intro principal hprincipal
      rw [sessionOf, hprincipal]
      exact hgone
    cases held with
    | reauthenticatePassword principal =>
      obtain ⟨hash', session, hhash', hsession, -⟩ := reauthenticateCommit_eq_ok h
      obtain rfl : hash' = hash := Option.some.inj (hhash'.symm.trans hheld)
      rw [hgone] at hsession
      cases hsession
    | changePassword principal =>
      obtain ⟨⟨session, hsession⟩, -⟩ := changePasswordCommit_eq_ok h
      rw [hnone principal hheld] at hsession
      cases hsession
    | newPasskeyVerify principal flowId name =>
      obtain ⟨⟨session, hsession⟩, -⟩ := newPasskeyVerifyCommit_eq_ok h
      rw [hnone principal hheld] at hsession
      cases hsession
    | authenticationVerify flowId flow keyId key principal =>
      simp only [Held.session] at hheld
      split_ifs at hheld with hpurpose
      obtain ⟨_, _, _, -, -, -, -, -, -, -, hcases⟩ := authenticationVerifyCommit_eq_ok h
      obtain ⟨-, -, hash', session, hhash', hsession, -⟩ | ⟨hnot, -⟩ := hcases
      · obtain rfl : hash' = hash := Option.some.inj (hhash'.symm.trans hheld)
        rw [hgone] at hsession
        cases hsession
      · exact hnot hpurpose
    | setupAdministrator username => cases hheld
    | passwordLogin username user credential => cases hheld
    | authenticationOptions reauth principal => cases hheld
    | newPasskeyOptions principal => cases hheld
    | onboardingOptions flowId => cases hheld
    | onboardingComplete purpose token opened passkey => cases hheld

/-! ## Logins -/

/-- The account can log in. -/
def Accounts.Active (s : Accounts) (userId : String) : Prop :=
  ∃ user, s.users.get? userId = some user ∧ user.status = .active

/-- The request an event resumes. -/
def World.resumed (w : World) : Event → Option Flight
  | .resume request _ _ _ => w.flights request
  | _ => none

/-- At the commit of a login the account is active, and its password is the one of the check. -/
def World.PasswordKept (w : World) (e : Event) (userId : String) : Prop :=
  w.tables.Active userId ∧ ∃ flight before current, w.resumed e = some flight ∧
    flight.checked.passwords.get? userId = some before ∧
    w.tables.passwords.get? userId = some current ∧ current.hash = before.hash

/-- At the commit of a login the account is active, and the passkey is the one of the check. -/
def World.PasskeyKept (w : World) (e : Event) (keyId userId : String) : Prop :=
  w.tables.Active userId ∧ ∃ flight before current, w.resumed e = some flight ∧
    flight.checked.passkeys.get? keyId = some before ∧
    w.tables.passkeys.get? keyId = some current ∧ before.userId = userId ∧
    current.userId = userId ∧ current.publicKey = before.publicKey ∧
    current.counter = before.counter

theorem commit_of_does {done : Done} (h : w.does vault e = some done) :
    (∃ flight answer draw now s', w.resumed e = some flight ∧
      commit vault flight.held answer draw now w.tables = .ok (done, s')) ∨
      ∃ call draw now s', e = .perform call draw now ∧
        perform vault call draw now w.tables = .ok (done, s') := by
  obtain ⟨draw, s', htransaction⟩ := World.does_eq_some h
  cases e with
  | arrive request call now => cases htransaction
  | resume request answer draw' now =>
    obtain ⟨flight, hflight, heq⟩ := Option.map_eq_some_iff.1 htransaction
    exact .inl ⟨flight, answer, draw', now, s', hflight, (Prod.mk.inj heq).2⟩
  | perform call draw' now =>
    exact .inr ⟨call, draw', now, s', rfl, (Prod.mk.inj (Option.some.inj htransaction)).2⟩

/-- A synchronous call logs nobody in. -/
theorem perform_no_session {call : SyncCall} {draw : Draw} {now : Int} {s s' : Accounts}
    {done : Done} (h : perform vault call draw now s = .ok (done, s')) : done.session = none := by
  cases call with
  | updateUser principal id changes =>
    obtain ⟨_, -, -, -, rfl, -⟩ := updateUser_eq_ok h
    split_ifs <;> rfl
  | _ =>
    simp only [perform, bind_eq_ok, pure_eq_ok, Prod.mk.injEq] at h
    first
      | obtain ⟨rfl, -⟩ := h
        rfl
      | obtain ⟨_, -, rfl, -⟩ := h
        rfl

theorem passwordLogin_held {held : Held} {answer : Answer} {draw : Draw} {now : Int}
    {s s' : Accounts} {userId hash : String}
    (h : commit vault held answer draw now s = .ok (.passwordLogin userId hash, s')) :
    s.Active userId ∧ ∃ username row password current,
      held = .passwordLogin username (some (userId, row)) (some password) ∧
        s.passwords.get? userId = some current ∧ current.hash = password.hash := by
  cases held with
  | passwordLogin username user credential =>
    obtain ⟨userId', row, password, fresh, current, rfl, rfl, hfresh, hactive, hcurrent, hsame,
      hdone, -⟩ := passwordLoginCommit_eq_ok h
    obtain ⟨rfl, -⟩ := Done.passwordLogin.inj hdone
    exact ⟨⟨fresh, hfresh, hactive⟩, username, row, password, current, rfl, hcurrent, hsame⟩
  | setupAdministrator username =>
    obtain ⟨-, hdone, -⟩ := setupCommit_eq_ok h
    cases hdone
  | reauthenticatePassword principal =>
    obtain ⟨_, _, -, -, hdone, -⟩ := reauthenticateCommit_eq_ok h
    cases hdone
  | changePassword principal =>
    obtain ⟨-, hdone, -⟩ := changePasswordCommit_eq_ok h
    cases hdone
  | authenticationOptions reauth principal =>
    simp only [commit, authenticationOptionsCommit, bind_eq_ok, pure_eq_ok, Prod.mk.injEq,
      reduceCtorEq, false_and, and_false, exists_false] at h
  | authenticationVerify flowId flow keyId key principal =>
    obtain ⟨_, _, _, -, -, -, -, -, -, -, ⟨-, hdone, -⟩ | ⟨-, hdone, -⟩⟩ :=
      authenticationVerifyCommit_eq_ok h <;> cases hdone
  | newPasskeyOptions principal =>
    simp only [commit, newPasskeyOptionsCommit, bind_eq_ok, pure_eq_ok, Prod.mk.injEq,
      reduceCtorEq, false_and, and_false, exists_false] at h
  | newPasskeyVerify principal flowId name =>
    obtain ⟨-, -, hdone, -⟩ := newPasskeyVerifyCommit_eq_ok h
    cases hdone
  | onboardingOptions flowId => simp [commit, onboardingOptionsCommit] at h
  | onboardingComplete purpose token opened passkey =>
    obtain ⟨_, -, -, -, hdone, -⟩ := onboardingCompleteCommit_eq_ok h
    cases hdone

theorem passkeyLogin_held {held : Held} {answer : Answer} {draw : Draw} {now : Int}
    {s s' : Accounts} {id keyId userId hash : String}
    (h : commit vault held answer draw now s = .ok (.passkeyLogin id keyId userId hash, s')) :
    s.Active userId ∧ ∃ flow key principal current,
      held = .authenticationVerify id flow keyId key principal ∧ key.userId = userId ∧
        s.passkeys.get? keyId = some current ∧ current.userId = userId ∧
        current.publicKey = key.publicKey ∧ current.counter = key.counter := by
  cases held with
  | authenticationVerify flowId flow keyId' key principal =>
    obtain ⟨_, fresh, current, hfresh, hactive, hcurrent, howner, hpublic, hcounter, -,
      ⟨-, hdone, -⟩ | ⟨-, hdone, -⟩⟩ := authenticationVerifyCommit_eq_ok h
    · cases hdone
    · obtain ⟨rfl, rfl, rfl, -⟩ := Done.passkeyLogin.inj hdone
      exact ⟨⟨fresh, hfresh, hactive⟩, flow, key, principal, current, rfl, rfl, hcurrent, howner,
        hpublic, hcounter⟩
  | passwordLogin username user credential =>
    obtain ⟨_, _, _, _, _, -, -, -, -, -, -, hdone, -⟩ := passwordLoginCommit_eq_ok h
    cases hdone
  | setupAdministrator username =>
    obtain ⟨-, hdone, -⟩ := setupCommit_eq_ok h
    cases hdone
  | reauthenticatePassword principal =>
    obtain ⟨_, _, -, -, hdone, -⟩ := reauthenticateCommit_eq_ok h
    cases hdone
  | changePassword principal =>
    obtain ⟨-, hdone, -⟩ := changePasswordCommit_eq_ok h
    cases hdone
  | authenticationOptions reauth principal =>
    simp only [commit, authenticationOptionsCommit, bind_eq_ok, pure_eq_ok, Prod.mk.injEq,
      reduceCtorEq, false_and, and_false, exists_false] at h
  | newPasskeyOptions principal =>
    simp only [commit, newPasskeyOptionsCommit, bind_eq_ok, pure_eq_ok, Prod.mk.injEq,
      reduceCtorEq, false_and, and_false, exists_false] at h
  | newPasskeyVerify principal flowId name =>
    obtain ⟨-, -, hdone, -⟩ := newPasskeyVerifyCommit_eq_ok h
    cases hdone
  | onboardingOptions flowId => simp [commit, onboardingOptionsCommit] at h
  | onboardingComplete purpose token opened passkey =>
    obtain ⟨_, -, -, -, hdone, -⟩ := onboardingCompleteCommit_eq_ok h
    cases hdone

theorem passwordKept {userId hash : String} (hlogged : Logged w)
    (h : w.does vault e = some (.passwordLogin userId hash)) : w.PasswordKept e userId := by
  obtain ⟨flight, answer, draw, now, s', hresumed, hcommit⟩ | ⟨call, draw, now, s', -, hperform⟩ :=
    commit_of_does h
  · obtain ⟨hactive, username, row, password, current, hheld, hcurrent, hsame⟩ :=
      passwordLogin_held hcommit
    have hread : flight.held.ReadAt flight.checked := by
      cases e with
      | resume request _ _ _ => exact hlogged.reads request flight hresumed
      | arrive request call now => cases hresumed
      | perform call draw now => cases hresumed
    rw [hheld] at hread
    exact ⟨hactive, flight, password, current, hresumed, hread.symm, hcurrent, hsame⟩
  · cases perform_no_session hperform

theorem passkeyKept {id keyId userId hash : String} (hlogged : Logged w)
    (h : w.does vault e = some (.passkeyLogin id keyId userId hash)) :
    w.PasskeyKept e keyId userId := by
  obtain ⟨flight, answer, draw, now, s', hresumed, hcommit⟩ | ⟨call, draw, now, s', -, hperform⟩ :=
    commit_of_does h
  · obtain ⟨hactive, flow, key, principal, current, hheld, hkey, hcurrent, howner, hpublic,
      hcounter⟩ := passkeyLogin_held hcommit
    have hread : flight.held.ReadAt flight.checked := by
      cases e with
      | resume request _ _ _ => exact hlogged.reads request flight hresumed
      | arrive request call now => cases hresumed
      | perform call draw now => cases hresumed
    rw [hheld] at hread
    exact ⟨hactive, flight, key, current, hresumed, hread, hcurrent, hkey, howner, hpublic,
      hcounter⟩
  · cases perform_no_session hperform

/-- **Flows are used once, and revocation wins.** In every run: no flow id is completed twice; a
committed completion leaves no open flow of its user; a login that is issued a session has, when
it commits, an active account and the credential of its check; and a session that a user had
before a disable, a password change or a recovery neither authenticates nor completes anything
afterwards. -/
theorem logins_one_shot (h : Reachable vault w) :
    (w.log.filterMap Done.flow).Nodup ∧
      (∀ e purpose id userId hash, w.does vault e = some (.onboarded purpose id userId hash) →
        ∀ id' flow, (w.step vault e).tables.authFlows.get? id' = some flow →
          flow.userId = some userId → flow.consumedAt ≠ none) ∧
      (∀ e userId hash, w.does vault e = some (.passwordLogin userId hash) →
        w.PasswordKept e userId) ∧
      (∀ e id keyId userId hash, w.does vault e = some (.passkeyLogin id keyId userId hash) →
        w.PasskeyKept e keyId userId) ∧
      (∀ e done userId, w.Fresh vault e → w.does vault e = some done →
        done.revokes = some userId → ∀ w', Leads vault (w.step vault e) w' →
          ∀ past ∈ w.log, ∀ hash, past.session = some (hash, userId) →
            Powerless vault w' hash) := by
  have hlogged := logged h
  refine ⟨hlogged.once, ?_, fun e _ _ => passwordKept hlogged, fun e _ _ _ _ => passkeyKept hlogged,
    ?_⟩
  · intro e purpose id userId hash hdoes id' flow hflow howner
    obtain ⟨draw, s', htransaction⟩ := World.does_eq_some hdoes
    have hstep : (w.step vault e).tables = s' := by
      simp [World.step, htransaction, World.settle, Except.toOption]
    rw [hstep] at hflow
    exact (World.transaction_effect htransaction).closes purpose id userId hash rfl id' flow hflow
      howner
  · intro e done userId hfresh hdoes hrevokes w' hleads past hpast hash hsession
    have hgone := session_gone_of_revokes hlogged hfresh hdoes hrevokes hpast hsession
    obtain ⟨draw, s', htransaction⟩ := World.does_eq_some hdoes
    have htoken : hash ∈ (w.step vault e).tokens := by
      have hold := hlogged.tokens past hpast hash userId hsession
      simp only [World.step, htransaction, World.settle]
      exact List.mem_cons_of_mem _ hold
    exact powerless_of_gone (session_gone_leads hleads htoken hgone)

/-! ## A password change -/

/-- The principal of the session that setup issues. -/
def examplePrincipal : Principal where
  userId := "root"
  user := ⟨"root", .admin, .active, none, 1, 0⟩
  authentication := .session
  sessionHash := some (tokenHash "first")
  recentAuthentication := true

/-- After setup, with a password change that waits for its hash. -/
def changing : World :=
  (((World.start .empty).step exampleVault (.arrive 0 (.setupAdministrator "root") 0)).step
    exampleVault (.resume 0 (exampleAnswer "old") (exampleDraw "first" "") 0)).step
    exampleVault (.arrive 1 (.changePassword examplePrincipal) 1)

def changed : Event := .resume 1 (exampleAnswer "new") (exampleDraw "second" "flow") 2

theorem changing_reachable : Reachable exampleVault changing := by
  refine ⟨.empty, .step _ (.step _ (.step _ .refl ?_) ?_) ?_⟩
  · exact World.fresh_arrive _ _ _ _ _
  · exact World.fresh_resume (by decide +kernel) (by decide +kernel)
  · exact World.fresh_arrive _ _ _ _ _

/-- The session that asked for the change ends with it. -/
theorem first_session_powerless :
    Powerless exampleVault (changing.step exampleVault changed) (tokenHash "first") := by
  obtain ⟨-, -, -, -, hrevoked⟩ := logins_one_shot changing_reachable
  apply hrevoked changed (.passwordChanged "root") "root" _ _ rfl _ .refl
    (.setup "root" (tokenHash "first")) _ _ rfl
  · exact World.fresh_resume (by decide +kernel) (by decide +kernel)
  · decide +kernel
  · decide +kernel

end Bifurcation.Panel.Identity
