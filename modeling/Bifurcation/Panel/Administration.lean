import Bifurcation.Panel.IdentityRuns

/-!
# Somebody can administer the panel

Role, status and credential of an account are written by setup, by `updateUser` and by the
completion of a flow, each in a transaction that checks them again. `AccountEffect` says what a
committed call may do to them: an account and a credential are never deleted, an account becomes
active with a credential only, and the last active administrator stays one.

Main result: `panel_administrable`.
-/

namespace Bifurcation.Panel.Identity

variable {vault : Vault} {draw : Draw} {now : Int} {s s' : Accounts} {done : Done}
variable {w : World} {e : Event}

/-- Some active account is an administrator. -/
def Accounts.Administered (s : Accounts) : Prop :=
  ∃ id user, s.users.get? id = some user ∧ user.administers = true

/-- Every active account has a password. -/
def Accounts.Credentialed (s : Accounts) : Prop :=
  ∀ id user, s.users.get? id = some user → user.status = .active → (s.passwords.get? id).isSome

def Done.isSetup : Done → Bool
  | .setup _ _ => true
  | _ => false

/-- What a committed call does to accounts and credentials. -/
structure AccountEffect (done : Done) (s s' : Accounts) : Prop where
  credentialed : s.Credentialed → s'.Credentialed
  administered : s.Administered → s'.Administered
  setup : done.isSetup = true → s.users.rows = [] ∧ s'.Administered

theorem AccountEffect.of_eq (hsetup : done.isSetup = false) (husers : s'.users = s.users)
    (hpasswords : s'.passwords = s.passwords) : AccountEffect done s s' where
  credentialed h := by
    unfold Accounts.Credentialed
    rw [husers, hpasswords]
    exact h
  administered h := by
    unfold Accounts.Administered
    rw [husers]
    exact h
  setup h := by
    rw [hsetup] at h
    cases h

/-- Credentials that are replaced are kept. -/
theorem isSome_set {table : Table String PasswordRow} {id id' : String} {row : PasswordRow}
    (h : (table.get? id').isSome) : ((table.set id row).get? id').isSome := by
  rw [Table.get?_set]
  split_ifs
  · rfl
  · exact h

theorem setupCommit_accounts {username hash : String}
    (h : setupCommit vault username hash draw now s = .ok (done, s')) :
    AccountEffect done s s' := by
  obtain ⟨hempty, rfl, -, panel, rfl⟩ := setupCommit_eq_ok h
  have hadministered : ∃ id user,
      (s.users.set draw.userId ⟨username, .admin, .active, none, 1, now⟩).get? id = some user ∧
        user.administers = true := ⟨draw.userId, _, s.users.get?_set_self _ _, rfl⟩
  exact
    { credentialed := by
        intro hs id user huser hactive
        dsimp only at huser ⊢
        rw [Table.get?_set] at huser
        split_ifs at huser with hid
        · rw [hid, Table.get?_set_self]
          rfl
        · exact isSome_set (hs id user huser hactive)
      administered := fun _ => hadministered
      setup := fun _ => ⟨hempty, hadministered⟩ }

theorem changePasswordCommit_accounts {principal : Principal} {hash : String}
    (h : changePasswordCommit principal hash now s = .ok (done, s')) :
    AccountEffect done s s' := by
  obtain ⟨-, rfl, rfl⟩ := changePasswordCommit_eq_ok h
  exact
    { credentialed := by
        intro hs id user huser hactive
        dsimp only
        rw [Table.get?_updateWhere, Option.isSome_map]
        exact hs id user huser hactive
      administered := fun hs => hs
      setup := fun h => by cases h }

/-- A completion makes its account active and gives it a password. -/
theorem onboardingCompleteCommit_accounts {purpose : Onboarding} {token : String}
    {opened : OnboardingFlow} {passkey : Option String} {registration : Option Registration}
    {hash : String}
    (h : onboardingCompleteCommit vault purpose token opened passkey registration hash draw now s =
      .ok (done, s')) : AccountEffect done s s' := by
  obtain ⟨current, -, -, -, rfl, passkeys, panel, rfl⟩ := onboardingCompleteCommit_eq_ok h
  exact
    { credentialed := by
        intro hs id user huser hactive
        dsimp only at huser ⊢
        by_cases hid : id = opened.userId
        · rw [hid, Table.get?_set_self]
          rfl
        · rw [Table.get?_updateWhere, Option.map_eq_some_iff] at huser
          obtain ⟨old, hold, rfl⟩ := huser
          simp only [hid, decide_false, Bool.false_eq_true, if_false] at hactive
          exact isSome_set (hs id old hold hactive)
      administered := by
        rintro ⟨id, user, huser, hadmin⟩
        by_cases hid : id = opened.userId
        · refine ⟨id, { user with status := .active, version := current.user.version + 1 }, ?_, ?_⟩
          · dsimp only
            rw [Table.get?_updateWhere, huser, Option.map_some]
            simp [hid]
          · simp only [AccountRow.administers, Bool.and_eq_true, decide_eq_true_eq] at hadmin ⊢
            exact ⟨hadmin.1, trivial⟩
        · refine ⟨id, user, ?_, hadmin⟩
          dsimp only
          rw [Table.get?_updateWhere, huser, Option.map_some]
          simp [hid]
      setup := fun h => by cases h }

/-- Of two administrators one is another. -/
theorem exists_other_administrator (id : String)
    (h : 1 < (s.users.rows.filter fun x => x.2.administers).length) :
    ∃ id' user, id' ≠ id ∧ s.users.get? id' = some user ∧ user.administers = true := by
  have hnodup : ((s.users.rows.filter fun x => x.2.administers).map Prod.fst).Nodup :=
    s.users.nodup.sublist (List.filter_sublist.map _)
  match hadmins : s.users.rows.filter fun x => x.2.administers with
  | [] => simp [hadmins] at h
  | [_] => simp [hadmins] at h
  | x :: y :: rest =>
    have hmem : ∀ z ∈ x :: y :: rest, s.users.get? z.1 = some z.2 ∧ z.2.administers = true := by
      intro z hz
      rw [← hadmins, List.mem_filter] at hz
      exact ⟨Table.get?_of_mem hz.1, hz.2⟩
    by_cases hx : x.1 = id
    · have hy : y.1 ≠ id := by
        intro hy
        rw [hadmins] at hnodup
        simp [hx, hy] at hnodup
      obtain ⟨hget, hadmin⟩ := hmem y (by simp)
      exact ⟨y.1, y.2, hy, hget, hadmin⟩
    · obtain ⟨hget, hadmin⟩ := hmem x (by simp)
      exact ⟨x.1, x.2, hx, hget, hadmin⟩

/-- An administrator that an update neither demotes nor disables stays one. -/
theorem administers_apply {user : AccountRow} {changes : UserChanges}
    (hadmin : user.administers = true)
    (hkeeps : ¬ (changes.role = some .user ∨ changes.status = some .disabled)) :
    (changes.apply user).administers = true := by
  rw [not_or] at hkeeps
  simp only [AccountRow.administers, Bool.and_eq_true, decide_eq_true_eq] at hadmin ⊢
  obtain ⟨hrole, hstatus⟩ := hkeeps
  obtain ⟨hwasAdmin, hwasActive⟩ := hadmin
  constructor
  · show changes.role.getD user.role = .admin
    cases hnew : changes.role with
    | none => exact hwasAdmin
    | some role =>
      cases role
      · rfl
      · exact absurd hnew hrole
  · show changes.status.getD user.status = .active
    unfold UserChanges.status at hstatus ⊢
    cases hnew : changes.active with
    | none => exact hwasActive
    | some active =>
      cases active
      · simp [hnew] at hstatus
      · rfl

theorem updateUser_accounts {principal : Principal} {id : String} {changes : UserChanges}
    (h : updateUser vault principal id changes draw now s = .ok (done, s')) :
    AccountEffect done s s' := by
  obtain ⟨user, huser, hpassword, hlast, rfl, panel, rfl⟩ := updateUser_eq_ok h
  exact
    { credentialed := by
        intro hs id' user' huser' hactive
        dsimp only at huser' ⊢
        rw [Table.get?_set] at huser'
        split_ifs at huser' with hid
        · obtain rfl := Option.some.inj huser'
          rw [hid]
          have hstatus : changes.status.getD user.status = .active := hactive
          cases hchanged : changes.status with
          | none =>
            rw [hchanged] at hstatus
            exact hs id user huser hstatus
          | some status =>
            rw [hchanged] at hstatus
            obtain rfl : status = .active := hstatus
            exact hpassword hchanged
        · exact hs id' user' huser' hactive
      administered := by
        rintro ⟨id', admin, hadmin, hadministers⟩
        by_cases hid : id' = id
        · obtain rfl : user = admin := by
            rw [hid, huser] at hadmin
            exact Option.some.inj hadmin
          by_cases hremoved : changes.role = some .user ∨ changes.status = some .disabled
          · obtain ⟨other, admin', hother, hget, hadmin'⟩ :=
              exists_other_administrator id (hlast hadministers hremoved)
            exact ⟨other, admin', by rw [Table.get?_set_of_ne _ _ hother]; exact hget, hadmin'⟩
          · exact ⟨id, _, s.users.get?_set_self _ _, administers_apply hadministers hremoved⟩
        · exact ⟨id', admin, by rw [Table.get?_set_of_ne _ _ hid]; exact hadmin, hadministers⟩
      setup := by
        intro h
        split_ifs at h <;> cases h }

/-- An account that is created is pending. -/
theorem pending_accounts {row : AccountRow} (hpending : row.status = .pending) {id : String}
    (hnew : s.users.get? id = none) (husers : s'.users = s.users.set id row)
    (hpasswords : s'.passwords = s.passwords) : AccountEffect .quiet s s' where
  credentialed := by
    intro hs id' user huser hactive
    rw [husers, Table.get?_set] at huser
    rw [hpasswords]
    split_ifs at huser
    · obtain rfl := Option.some.inj huser
      rw [hpending] at hactive
      cases hactive
    · exact hs id' user huser hactive
  administered := by
    rintro ⟨id', user, huser, hadmin⟩
    have hne : id' ≠ id := by
      rintro rfl
      rw [hnew] at huser
      cases huser
    exact ⟨id', user, by rw [husers, Table.get?_set_of_ne _ _ hne]; exact huser, hadmin⟩
  setup h := by cases h

theorem commit_accounts {held : Held} {answer : Answer}
    (h : commit vault held answer draw now s = .ok (done, s')) : AccountEffect done s s' := by
  cases held with
  | setupAdministrator username => exact setupCommit_accounts h
  | changePassword principal => exact changePasswordCommit_accounts h
  | onboardingComplete purpose token opened passkey => exact onboardingCompleteCommit_accounts h
  | passwordLogin username user credential =>
    obtain ⟨_, _, _, _, _, -, -, -, -, -, -, rfl, -, _, rfl⟩ := passwordLoginCommit_eq_ok h
    exact .of_eq rfl rfl rfl
  | reauthenticatePassword principal =>
    obtain ⟨_, _, -, -, rfl, rfl⟩ := reauthenticateCommit_eq_ok h
    exact .of_eq rfl rfl rfl
  | authenticationOptions reauth principal =>
    simp only [commit, authenticationOptionsCommit, bind_eq_ok, pure_eq_ok, Prod.mk.injEq] at h
    obtain ⟨s₁, hinsert, rfl, rfl⟩ := h
    obtain ⟨-, rfl⟩ := insertFlow_eq_ok hinsert
    exact .of_eq rfl rfl rfl
  | authenticationVerify flowId flow keyId key principal =>
    obtain ⟨_, _, _, -, -, -, -, -, -, -, ⟨-, rfl, _, _, -, -, rfl⟩ | ⟨-, rfl, hissue⟩⟩ :=
      authenticationVerifyCommit_eq_ok h
    · exact .of_eq rfl rfl rfl
    · obtain ⟨-, rfl⟩ := issueSession_eq_ok hissue
      exact .of_eq rfl rfl rfl
  | newPasskeyOptions principal =>
    simp only [commit, newPasskeyOptionsCommit, bind_eq_ok, pure_eq_ok, Prod.mk.injEq] at h
    obtain ⟨s₁, hinsert, rfl, rfl⟩ := h
    obtain ⟨-, rfl⟩ := insertFlow_eq_ok hinsert
    exact .of_eq rfl rfl rfl
  | newPasskeyVerify principal flowId name =>
    obtain ⟨-, -, rfl, _, rfl⟩ := newPasskeyVerifyCommit_eq_ok h
    exact .of_eq rfl rfl rfl
  | onboardingOptions flowId =>
    simp only [commit, onboardingOptionsCommit, pure_eq_ok, Prod.mk.injEq] at h
    obtain ⟨rfl, rfl⟩ := h
    exact .of_eq rfl rfl rfl

theorem perform_accounts {call : SyncCall} (h : perform vault call draw now s = .ok (done, s')) :
    AccountEffect done s s' := by
  cases call with
  | updateUser principal id changes => exact updateUser_accounts h
  | createUser principal username role limit =>
    simp only [perform, bind_eq_ok, pure_eq_ok, Prod.mk.injEq] at h
    obtain ⟨s₁, hcreate, rfl, rfl⟩ := h
    obtain ⟨hnew, hissue⟩ := createUser_eq_ok hcreate
    obtain ⟨_, rfl⟩ := issueOnboarding_eq_ok hissue
    exact pending_accounts rfl hnew rfl rfl
  | adminInit username =>
    simp only [perform, bind_eq_ok, pure_eq_ok, Prod.mk.injEq] at h
    obtain ⟨s₁, hinit, rfl, rfl⟩ := h
    obtain ⟨hnew, hissue⟩ := adminInit_eq_ok hinit
    obtain ⟨_, rfl⟩ := issueOnboarding_eq_ok hissue
    exact pending_accounts rfl hnew rfl rfl
  | authenticate headers =>
    simp only [perform, bind_eq_ok, pure_eq_ok, Prod.mk.injEq, Prod.exists] at h
    obtain ⟨principal, s₁, hauth, rfl, rfl⟩ := h
    obtain ⟨_, rfl⟩ := authenticate_eq_ok hauth
    exact .of_eq rfl rfl rfl
  | logout principal =>
    simp only [perform, logout, pure_eq_ok, Prod.mk.injEq] at h
    obtain ⟨rfl, rfl⟩ := h
    split <;> exact .of_eq rfl rfl rfl
  | createApiKey principal name =>
    simp only [perform, createApiKey, bind_eq_ok, failIf_eq_ok, exists_const, found_eq_ok,
      pure_eq_ok, Prod.mk.injEq] at h
    obtain ⟨_, ⟨-, _, -, rfl⟩, rfl, rfl⟩ := h
    exact .of_eq rfl rfl rfl
  | revokeApiKey principal id =>
    simp only [perform, revokeApiKey, bind_eq_ok, found_eq_ok, pure_eq_ok, Prod.mk.injEq] at h
    obtain ⟨_, ⟨_, -, rfl⟩, rfl, rfl⟩ := h
    exact .of_eq rfl rfl rfl
  | deletePasskey principal id =>
    simp only [perform, deletePasskey, bind_eq_ok, failIf_eq_ok, exists_const, pure_eq_ok,
      Prod.mk.injEq] at h
    obtain ⟨_, ⟨-, -, -, -, rfl⟩, rfl, rfl⟩ := h
    exact .of_eq rfl rfl rfl
  | createUserFlow principal id purpose =>
    simp only [perform, createUserFlow, bind_eq_ok, failIf_eq_ok, exists_const, found_eq_ok,
      pure_eq_ok, Prod.mk.injEq] at h
    obtain ⟨s₁, ⟨_, -, _, -, -, hissue⟩, rfl, rfl⟩ := h
    obtain ⟨_, rfl⟩ := issueOnboarding_eq_ok hissue
    exact .of_eq rfl rfl rfl
  | adminRecover username =>
    simp only [perform, adminRecover, bind_eq_ok, failIf_eq_ok, exists_const, found_eq_ok,
      pure_eq_ok, Prod.mk.injEq, Prod.exists] at h
    obtain ⟨s₁, ⟨_, _, -, -, hissue⟩, rfl, rfl⟩ := h
    obtain ⟨_, rfl⟩ := issueOnboarding_eq_ok hissue
    exact .of_eq rfl rfl rfl
  | cleanExpired =>
    simp only [perform, pure_eq_ok, Prod.mk.injEq] at h
    obtain ⟨rfl, rfl⟩ := h
    exact .of_eq rfl rfl rfl
  | panel db =>
    simp only [perform, pure_eq_ok, Prod.mk.injEq] at h
    obtain ⟨rfl, rfl⟩ := h
    exact .of_eq rfl rfl rfl

theorem World.transaction_accounts
    (h : w.transaction vault e = some (draw, .ok (done, s'))) : AccountEffect done w.tables s' := by
  cases e with
  | arrive request call now => cases h
  | resume request answer draw' now =>
    obtain ⟨flight, -, heq⟩ := Option.map_eq_some_iff.1 h
    exact commit_accounts (Prod.mk.inj heq).2
  | perform call draw' now => exact perform_accounts (Prod.mk.inj (Option.some.inj h)).2

/-! ## Runs -/

/-- The accounts of a run. -/
structure Administrable (w : World) : Prop where
  credentialed : w.tables.Credentialed
  once : w.log.countP Done.isSetup ≤ 1
  administered : 0 < w.log.countP Done.isSetup → w.tables.Administered

theorem administrable_start (panel : Database) : Administrable (.start panel) where
  credentialed _ _ h := by cases h
  once := Nat.zero_le 1
  administered h := absurd h (Nat.lt_irrefl 0)

theorem Accounts.Administered.rows_ne_nil (h : s.Administered) : s.users.rows ≠ [] := by
  obtain ⟨id, user, huser, -⟩ := h
  intro hempty
  have hmem := Table.mem_rows_iff.2 huser
  rw [hempty] at hmem
  cases hmem

theorem Administrable.step (h : Administrable w) : Administrable (w.step vault e) := by
  have hstepped := w.stepped vault e
  generalize w.step vault e = w' at hstepped ⊢
  cases hstepped with
  | @committed draw done s' htransaction =>
    have heffect := World.transaction_accounts htransaction
    by_cases hsetup : done.isSetup = true
    · -- Setup found no account, so nobody has set the panel up before.
      obtain ⟨hempty, hadministered⟩ := heffect.setup hsetup
      have hfirst : w.log.countP Done.isSetup = 0 := by
        by_contra hpast
        exact (h.administered (Nat.pos_of_ne_zero hpast)).rows_ne_nil hempty
      exact
        { credentialed := heffect.credentialed h.credentialed
          once := by
            show (done :: w.log).countP Done.isSetup ≤ 1
            rw [List.countP_cons_of_pos hsetup, hfirst]
          administered := fun _ => hadministered }
    · have hcount : (done :: w.log).countP Done.isSetup = w.log.countP Done.isSetup :=
        List.countP_cons_of_neg hsetup
      exact
        { credentialed := heffect.credentialed h.credentialed
          once := by
            show (done :: w.log).countP Done.isSetup ≤ 1
            rw [hcount]
            exact h.once
          administered := by
            intro hpast
            rw [hcount] at hpast
            exact heffect.administered (h.administered hpast) }
  | unchanged htables _ _ _ =>
    obtain ⟨rateLimits, rfl⟩ := htables
    exact
      { credentialed := h.credentialed
        once := h.once
        administered := h.administered }

/-- **Somebody can administer the panel.** In every run, with any requests in flight, every
active account has a password, setup succeeds at most once, and after it some active account is
an administrator. -/
theorem panel_administrable (h : Reachable vault w) :
    w.tables.Credentialed ∧ w.log.countP Done.isSetup ≤ 1 ∧
      (0 < w.log.countP Done.isSetup → w.tables.Administered) := by
  have hw : Administrable w := h.induction administrable_start fun _ _ hw _ => hw.step
  exact ⟨hw.credentialed, hw.once, hw.administered⟩

/-! ## Two setups at once -/

/-- Two requests find the panel without accounts, and both hash a password. -/
def racing : World :=
  ((((World.start .empty).step exampleVault (.arrive 0 (.setupAdministrator "first") 0)).step
    exampleVault (.arrive 1 (.setupAdministrator "second") 0)).step
    exampleVault (.resume 1 (exampleAnswer "b") (exampleDraw "b" "b") 1)).step
    exampleVault (.resume 0 (exampleAnswer "a") (exampleDraw "a" "a") 2)

theorem racing_reachable : Reachable exampleVault racing := by
  refine ⟨.empty, .step _ (.step _ (.step _ (.step _ .refl ?_) ?_) ?_) ?_⟩
  · exact World.fresh_arrive _ _ _ _ _
  · exact World.fresh_arrive _ _ _ _ _
  · exact World.fresh_resume (by decide +kernel) (by decide +kernel)
  · exact World.fresh_resume (by decide +kernel) (by decide +kernel)

/-- One of them claims the panel, and it is an administrator. -/
theorem racing_administered : racing.tables.Administered ∧ racing.log.countP Done.isSetup = 1 := by
  obtain ⟨-, honce, hadministered⟩ := panel_administrable racing_reachable
  have hpast : 0 < racing.log.countP Done.isSetup := by decide +kernel
  exact ⟨hadministered hpast, by omega⟩

end Bifurcation.Panel.Identity
