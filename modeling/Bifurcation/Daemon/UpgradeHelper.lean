import Bifurcation.Daemon.UpgradeSpec

/-!
# The helper keeps the invariant

`runUpgrade` is safe whenever it starts: while the task has no result, the plan and the files are
the helper's own, and it passes from `updater_ready` over `switching` to `local_healthy`, or to a
restored backup. Once there is a result, it only reports it.
-/

namespace Bifurcation.Daemon.Updater

open Thread

section Helper

variable {site : Site} {old : String} {w w' : World}

/-! ## What the helper knows -/

/-- The plan says `updater_ready`. -/
def Ready (old : String) (plan : Plan) (p : Option Plan) (files : File → Option String) : Prop :=
  p = some plan ∧ files .installedBinary = some old ∧ files .backup = some old

/-- The plan says that the binary is being replaced. -/
def Switching (site : Site) (old : String) (p : Option Plan) (files : File → Option String) :
    Prop :=
  (∃ plan, p = some plan ∧
    (plan.phase = .switching ∨ plan.phase = .starting ∨ plan.phase = .rollingBack) ∧
    Handed site old plan) ∧ files .backup = some old

/-- The new binary is installed and healthy. -/
def Confirmed (site : Site) (files : File → Option String) (healthy : Option String) : Prop :=
  files .installedBinary = some (newDigest site) ∧ healthy = some (newDigest site)

theorem Handed.phase {plan : Plan} (h : Handed site old plan) (phase : Phase) (issue : String) :
    Handed site old { plan with phase, localIssue := issue } :=
  ⟨h.taskId, h.old, h.new⟩

/-- A plan of the task that is not completed is replaced. -/
theorem savedPlan_of_open {before plan : Plan} (hphase : before.phase ≠ .completed)
    (htask : before.taskId = plan.taskId) : savedPlan (some before) plan = some plan := by
  simp [savedPlan, hphase, htask]

/-- `save` leaves the plan file or writes the plan. -/
theorem savedPlan_cases (before : Option Plan) (plan : Plan) :
    savedPlan before plan = before ∨ savedPlan before plan = some plan := by
  cases before with
  | none => exact .inr rfl
  | some before =>
    unfold savedPlan
    dsimp only
    split_ifs
    · exact .inl rfl
    · exact .inl rfl
    · exact .inr rfl

theorem Switching.saved {p : Option Plan} {files : File → Option String}
    (h : Switching site old p files) {plan : Plan} (htask : plan.taskId = site.taskId) :
    savedPlan p plan = some plan := by
  obtain ⟨⟨before, rfl, hphase, hhanded⟩, -⟩ := h
  refine savedPlan_of_open (fun hcompleted => ?_) (hhanded.taskId.trans htask.symm)
  simp [hcompleted] at hphase

theorem Switching.ne_localHealthy {p : Option Plan} {files : File → Option String}
    (h : Switching site old p files) {plan : Plan} (hplan : p = some plan) :
    plan.phase ≠ .localHealthy := by
  obtain ⟨⟨before, hbefore, hphase, -⟩, -⟩ := h
  obtain rfl := Option.some.inj (hplan.symm.trans hbefore)
  intro hhealthy
  simp [hhealthy] at hphase

/-- What a plan that was read tells its owner. -/
theorem Owns.sound {plan : Plan} (h : Owns site (fun p _ _ => p = some plan) w)
    (hinv : Inv site old w) :
    (plan.phase = .updaterReady ∧ Handed site old plan ∧
        Owns site (fun p files _ => Ready old plan p files) w) ∨
      ((plan.phase = .switching ∨ plan.phase = .starting ∨ plan.phase = .rollingBack) ∧
        Handed site old plan ∧ Owns site (fun p files _ => Switching site old p files) w) ∨
      (plan.phase = .localHealthy ∧
        Owns site (fun _ files healthy => Confirmed site files healthy) w) ∨
      plan.phase = .completed := by
  obtain ⟨hunit, hrunning, hplan⟩ := h
  cases hinv.sound hrunning with
  | idle hidle => exact .inr (.inr (.inr (hidle plan hplan)))
  | ready hp hphase hhanded hinstalled hbackup =>
    obtain rfl := Option.some.inj (hplan.symm.trans hp)
    exact .inl ⟨hphase, hhanded, hunit, hrunning, hp, hinstalled, hbackup⟩
  | switching hp hphase hhanded hbackup =>
    obtain rfl := Option.some.inj (hplan.symm.trans hp)
    exact .inr (.inl ⟨hphase, hhanded, hunit, hrunning, ⟨_, hp, hphase, hhanded⟩, hbackup⟩)
  | healthy hp hphase hhanded hinstalled hhealthy =>
    obtain rfl := Option.some.inj (hplan.symm.trans hp)
    exact .inr (.inr (.inl ⟨hphase, hunit, hrunning, hinstalled, hhealthy⟩))
  | restored hp hphase hhanded hinstalled hbackup hhelper =>
    rw [hhelper] at hunit
    cases hunit

/-! ## Steps of the helper -/

variable {α : Type} {A : Option Plan → (File → Option String) → Option String → Prop}
  {B : Result α → Option Plan → (File → Option String) → Option String → Prop}

theorem helperRely_refl (w : World) : HelperRely site w w := .refl w

theorem progress_helperStep (w w' : World) (h : Progress site w w') : HelperStep site w w' :=
  h.helperStep

theorem stable_terminal : Stable (HelperRely site) (Inv site old) (Terminal site) :=
  fun _ _ h hrely _ => (hrely.kept h).terminal h

/-- The end of a helper. -/
theorem helps_done {P : World → Prop} (r : Result α) :
    Helps site old P (pure r) fun _ _ => True :=
  rg_pure stable_true fun _ _ _ => trivial

/-- The owner of a plan that does not say `local_healthy` changes the plan or a file. -/
theorem helps_act {f : Answer → World → Result α × World}
    (hlocal : ∀ p files healthy plan, A p files healthy → p = some plan →
      plan.phase ≠ .localHealthy)
    (hjournal : ∀ o w, (f o w).2.journal = w.journal)
    (hunit : ∀ o w, (f o w).2.helperUnit = w.helperUnit)
    (herror : ∀ err p files healthy, A p files healthy → B (.error err) p files healthy)
    (hsound : ∀ o w, Inv site old w → Owns site A w → Sound site old (f o w).2 ∧
      (∀ plan, (f o w).2.plan = some plan → plan.phase = .completed ∨ plan.taskId = site.taskId))
    (h : ∀ o w, A w.plan w.files w.healthy →
      B (f o w).1 (f o w).2.plan (f o w).2.files (f o w).2.healthy) :
    Helps site old (Owns site A) (attempt f) fun r => Owns site (B r) := by
  refine rg_atomic lasting_owns.stable (fun r => lasting_owns.stable) fun w o hw hinv _ => ?_
  obtain ⟨hhelper, hrunning, hA⟩ := hw
  cases herr : o.error with
  | some err => exact ⟨(Progress.refl w).helperStep, hinv, hhelper, hrunning, herror _ _ _ _ hA⟩
  | none =>
    have hrunning' : ¬ Terminal site (f o w).2 := by
      rw [Terminal, outcome, hjournal]
      exact hrunning
    obtain ⟨hsound', htask⟩ := hsound o w hinv ⟨hhelper, hrunning, hA⟩
    refine ⟨⟨hunit o w, fun ht => absurd ht hrunning, fun plan hplan hphase _ => ?_⟩,
      ⟨.of_running hrunning', fun _ => hsound', htask⟩,
      (hunit o w).trans hhelper, hrunning', h o w hA⟩
    exact absurd hphase (hlocal _ _ _ _ hA hplan)

/-- Reading a file. -/
theorem helps_fileSHA256 (f : File) :
    Helps site old (Owns site A) (fileSHA256 f) fun r => Owns site fun p files healthy =>
      A p files healthy ∧ ∀ digest, r = .ok digest → files f = some digest := by
  refine rg_look (fun w => (Progress.refl w).helperStep) lasting_owns.stable
    (fun r => lasting_owns.stable) (fun _ _ => rfl) ?_ ?_
  · exact fun w err hw _ => ⟨hw.1, hw.2.1, hw.2.2, fun digest h => by cases h⟩
  · intro w o hw _
    exact ⟨hw.1, hw.2.1, hw.2.2, fun digest h => found_eq_ok.1 h⟩

theorem helps_command : Helps site old (Owns site A) command fun _ => Owns site A :=
  rg_quiet progress_helperStep lasting_owns fun _ _ => rfl

theorem helps_publish (phase version message : String) :
    Helps site old (Owns site A) (publish site phase version message) fun _ => Owns site A :=
  rg_publish helperRely_refl progress_helperStep lasting_owns phase version message

/-- Saving a plan once the task has a result. -/
theorem helps_save_reported {plan : Plan} (htask : plan.taskId = site.taskId) :
    Helps site old (Reported site) (save plan) fun _ => Reported site := by
  refine rg_atomic lasting_reported.stable (fun _ => lasting_reported.stable)
    fun w o hw hinv _ => ?_
  cases herr : o.error with
  | some err => exact ⟨(Progress.refl w).helperStep, hinv, hw⟩
  | none =>
    refine ⟨⟨rfl, fun _ => ⟨rfl, rfl, rfl, rfl⟩, fun _ _ _ h => absurd hw.2 h⟩,
      ⟨hinv.truthful.congr rfl rfl rfl, fun h => absurd hw.2 h, fun plan' hplan => ?_⟩, hw⟩
    rcases savedPlan_cases w.plan plan with hsaved | hsaved
    · exact hinv.task plan' (hsaved.symm.trans hplan)
    · obtain rfl := Option.some.inj (hsaved.symm.trans hplan)
      exact .inr htask

/-- `finish` is safe wherever its result would be true. -/
theorem helps_finish {P : World → Prop} (hP : Lasting (HelperRely site) site old P)
    (hunit : ∀ w, P w → w.helperUnit = true) {plan : Plan} (htask : plan.taskId = site.taskId)
    {success : Bool} {errorCode : String}
    (hsucceeded : success = true → ∀ w, Inv site old w → P w → ¬ Terminal site w →
      w.files .installedBinary = some (newDigest site) ∧ w.healthy = some (newDigest site))
    (hfailed : success = false → errorCode ≠ "ROLLBACK_FAILED" →
      ∀ w, Inv site old w → P w → ¬ Terminal site w → w.files .installedBinary = some old)
    (tries : ℕ) (phase message version : String) :
    Helps site old P (finish site tries plan phase success errorCode message version)
      fun _ _ => True := by
  unfold finish
  refine rg_bind helperRely_refl (rg_persist_result helperRely_refl progress_helperStep hP
    lasting_reported.stable stable_terminal hsucceeded hfailed ?_ ?_) fun r => ?_
  · intro w w' _ _ hrunning hsame _
    exact ⟨hsame.helperUnit, fun h => absurd h hrunning, fun _ _ _ _ =>
      ⟨hsame.plan, by rw [hsame.files], hsame.healthy⟩⟩
  · exact fun w w' hw hsame hterminal => ⟨hsame.helperUnit.trans (hunit w hw), hterminal⟩
  · cases r with
    | error err => exact helps_done _
    | ok task =>
      refine Rg.mono ?_ (fun w _ h => h task rfl) fun _ _ _ h => h
      refine rg_bind helperRely_refl (helps_save_reported htask) fun r => ?_
      cases r with
      | error err => exact helps_done _
      | ok _ =>
        refine rg_bind helperRely_refl
          (rg_awaitAcknowledged helperRely_refl progress_helperStep lasting_reported _ _)
          fun r => ?_
        cases r with
        | error err => exact helps_done _
        | ok _ =>
          have hsave : Helps site old (Reported site) (save { plan with phase := .completed })
              fun _ => Reported site := helps_save_reported htask
          exact hsave.mono (fun _ _ h => h) fun _ _ _ _ => trivial

/-! ## The programs of the helper -/

theorem helps_finish_owns {plan : Plan} (htask : plan.taskId = site.taskId) {success : Bool}
    {errorCode : String}
    (hsucceeded : success = true → ∀ p files healthy, A p files healthy →
      Confirmed site files healthy)
    (hfailed : success = false → errorCode ≠ "ROLLBACK_FAILED" → ∀ p files healthy,
      A p files healthy → files .installedBinary = some old)
    (tries : ℕ) (phase message version : String) :
    Helps site old (Owns site A)
      (finish site tries plan phase success errorCode message version) fun _ _ => True :=
  helps_finish lasting_owns (fun _ h => h.1) htask
    (fun hs _ _ h _ => hsucceeded hs _ _ _ h.2.2)
    (fun hs herr _ _ h _ => hfailed hs herr _ _ _ h.2.2) tries phase message version

theorem helps_failBeforeSwitch {plan : Plan} (htask : plan.taskId = site.taskId) (tries : ℕ)
    (message : String)
    (hold : ∀ p files healthy, A p files healthy → files .installedBinary = some old) :
    Helps site old (Owns site A) (failBeforeSwitch site tries plan message) fun _ _ => True :=
  helps_finish_owns htask (fun h => by cases h) (fun _ _ => hold) _ _ _ _

/-- The plan is saved while the binary is being replaced. -/
theorem helps_save_switching {plan : Plan} {C : (File → Option String) → Prop}
    (hphase : plan.phase = .switching ∨ plan.phase = .starting ∨ plan.phase = .rollingBack)
    (hhanded : Handed site old plan) :
    Helps site old (Owns site fun p files _ => Switching site old p files ∧ C files) (save plan)
      fun _ => Owns site fun p files _ => Switching site old p files ∧ C files := by
  refine helps_act (fun _ _ _ _ h => h.1.ne_localHealthy) (fun _ _ => rfl) (fun _ _ => rfl)
    (fun _ _ _ _ h => h) (fun o w _ hw => ?_) fun o w hw => ?_
  · have hsaved := hw.2.2.1.saved hhanded.taskId
    refine ⟨.switching hsaved hphase hhanded hw.2.2.1.2, fun plan' hplan => ?_⟩
    obtain rfl := Option.some.inj (hsaved.symm.trans hplan)
    exact .inr hhanded.taskId
  · exact ⟨⟨⟨plan, hw.1.saved hhanded.taskId, hphase, hhanded⟩, hw.1.2⟩, hw.2⟩

/-- The binary is replaced by another file. -/
theorem helps_replace {f : Answer → World → Result α × World}
    {C : (File → Option String) → Prop} {D : Result α → (File → Option String) → Prop}
    (hjournal : ∀ o w, (f o w).2.journal = w.journal)
    (hunit : ∀ o w, (f o w).2.helperUnit = w.helperUnit)
    (hplan : ∀ o w, (f o w).2.plan = w.plan)
    (hbackup : ∀ o w, (f o w).2.files .backup = w.files .backup)
    (herror : ∀ err files, C files → D (.error err) files)
    (h : ∀ o w, w.files .backup = some old → C w.files → D (f o w).1 (f o w).2.files) :
    Helps site old (Owns site fun p files _ => Switching site old p files ∧ C files) (attempt f)
      fun r => Owns site fun p files _ => Switching site old p files ∧ D r files := by
  refine helps_act (fun _ _ _ _ h => h.1.ne_localHealthy) hjournal hunit
    (fun err _ files _ h => ⟨h.1, herror err files h.2⟩) (fun o w hinv hw => ?_) fun o w hw => ?_
  · obtain ⟨⟨⟨plan, hp, hphase, hhanded⟩, hback⟩, -⟩ := hw.2.2
    exact ⟨.switching ((hplan o w).trans hp) hphase hhanded ((hbackup o w).trans hback),
      hplan o w ▸ hinv.task⟩
  · obtain ⟨⟨hplan', hback⟩, hC⟩ := hw
    exact ⟨⟨hplan o w ▸ hplan', (hbackup o w).trans hback⟩, h o w hback hC⟩

theorem helps_restore (plan : Plan) :
    Helps site old (Owns site fun p files _ => Switching site old p files) (restore plan) fun r =>
      Owns site fun p files _ => Switching site old p files ∧
        (r = .ok () → files .installedBinary = some old) := by
  have herror : ∀ (err : String) (C : (File → Option String) → Prop),
      Helps site old (Owns site fun p files _ => Switching site old p files ∧ C files)
        (pure (.error err) : Run (Result Unit)) fun r => Owns site fun p files _ =>
          Switching site old p files ∧ (r = .ok () → files .installedBinary = some old) :=
    fun err C => rg_pure lasting_owns.stable fun w _ h =>
      ⟨h.1, h.2.1, h.2.2.1, fun hr => by cases hr⟩
  unfold restore
  refine rg_bind helperRely_refl (helps_fileSHA256 .backup) fun r => ?_
  cases r with
  | error err =>
    exact (herror err fun _ => True).mono (fun _ _ h => ⟨h.1, h.2.1, h.2.2.1, trivial⟩)
      fun _ _ _ h => h
  | ok digest =>
    have hpre : ∀ {x : Run (Result Unit)} {Q : Result Unit → World → Prop},
        Helps site old (Owns site fun p files _ => Switching site old p files ∧ True) x Q →
        Helps site old (Owns site fun p files _ => Switching site old p files ∧
          ∀ digest', (.ok digest : Result String) = .ok digest' → files .backup = some digest')
          x Q :=
      fun hx => hx.mono (fun _ _ h => ⟨h.1, h.2.1, h.2.2.1, trivial⟩) fun _ _ _ h => h
    refine rg_ite (fun _ => hpre (herror _ fun _ => True)) fun _ => hpre ?_
    have hcopy : Helps site old
        (Owns site fun p files _ => Switching site old p files ∧ True)
        (copyAtomic .backup .installedBinary) fun r => Owns site fun p files _ =>
          Switching site old p files ∧ (r = .ok () → files .installedBinary = some old) := by
      refine helps_replace ?_ ?_ ?_ ?_ (fun err _ _ h => by cases h) ?_
      all_goals intro o w
      all_goals cases hback : w.files .backup
      all_goals simp_all [World.write]
    refine rg_bind helperRely_refl hcopy fun r => ?_
    cases r with
    | error err => exact herror err fun files => _ = _ → files .installedBinary = some old
    | ok _ =>
      refine rg_bind helperRely_refl helps_command fun r => ?_
      cases r with
      | error err => exact herror err fun files => _ = _ → files .installedBinary = some old
      | ok _ =>
        have hwait : Helps site old
            (Owns site fun p files _ => Switching site old p files ∧
              files .installedBinary = some old)
            (waitLocal plan.oldSha256) fun _ => Owns site fun p files _ =>
              Switching site old p files ∧ files .installedBinary = some old :=
          helps_replace (fun _ _ => rfl) (fun _ _ => rfl) (fun _ _ => rfl) (fun _ _ => rfl)
            (fun _ _ h => h) fun _ _ _ h => h
        have hconfirm : ∀ k, (∀ err, k (.error err) = (pure (.error err) : Run (Result Unit))) →
            (∀ v, k (.ok v) = pure (.ok ())) → Helps site old
            (Owns site fun p files _ => Switching site old p files ∧
              files .installedBinary = some old)
            (waitLocal plan.oldSha256 >>= k)
            fun r => Owns site fun p files _ => Switching site old p files ∧
              (r = .ok () → files .installedBinary = some old) := by
          intro k hfail hdone
          refine rg_bind helperRely_refl hwait fun r => ?_
          cases r with
          | error err =>
            rw [hfail]
            exact herror err fun files => files .installedBinary = some old
          | ok v =>
            rw [hdone]
            exact rg_pure lasting_owns.stable fun w _ h =>
              ⟨h.1, h.2.1, h.2.2.1, fun _ => h.2.2.2⟩
        exact (hconfirm _ (fun _ => rfl) fun _ => rfl).mono
          (fun _ _ h => ⟨h.1, h.2.1, h.2.2.1, h.2.2.2 rfl⟩) fun _ _ _ h => h

theorem helps_rollbackUpgrade {plan : Plan} (hhanded : Handed site old plan) (tries : ℕ)
    (cause : String) :
    Helps site old (Owns site fun p files _ => Switching site old p files)
      (rollbackUpgrade site tries plan cause) fun _ _ => True := by
  have hhanded' : Handed site old { plan with phase := .rollingBack } :=
    ⟨hhanded.taskId, hhanded.old, hhanded.new⟩
  unfold rollbackUpgrade
  refine Rg.mono (P := Owns site fun p files _ => Switching site old p files ∧ True) ?_
    (fun _ _ h => ⟨h.1, h.2.1, h.2.2, trivial⟩) fun _ _ _ h => h
  refine rg_bind helperRely_refl
    (helps_save_switching (.inr (.inr rfl)) hhanded' (C := fun _ => True)) fun r => ?_
  cases r with
  | error err => exact helps_done _
  | ok _ =>
    refine Rg.mono (P := Owns site fun p files _ => Switching site old p files) ?_
      (fun _ _ h => ⟨h.1, h.2.1, h.2.2.1⟩) fun _ _ _ h => h
    refine rg_bind helperRely_refl (helps_publish _ _ _) fun _ => ?_
    refine rg_bind helperRely_refl helps_command fun _ => ?_
    refine rg_bind helperRely_refl (helps_restore _) fun r => ?_
    cases r with
    | error err =>
      exact helps_finish_owns hhanded.taskId (fun h => by cases h)
        (fun _ hne => absurd rfl hne) _ _ _ _
    | ok _ =>
      exact helps_finish_owns hhanded.taskId (fun h => by cases h)
        (fun _ _ _ _ _ h => h.2 rfl) _ _ _ _

/-- The new binary is installed and the plan says so. -/
def Installed (site : Site) (files : File → Option String) : Prop :=
  files .installedBinary = some (newDigest site)

theorem helps_confirmUpgrade {plan : Plan} (hhanded : Handed site old plan) (tries : ℕ) :
    Helps site old (Owns site fun p files _ => Switching site old p files ∧ Installed site files)
      (confirmUpgrade site tries plan) fun _ _ => True := by
  have hwait : Helps site old
      (Owns site fun p files _ => Switching site old p files ∧ Installed site files)
      (waitLocal plan.newSha256) fun r => Owns site fun p files healthy =>
        Switching site old p files ∧ (∀ issue, r = .ok issue → Confirmed site files healthy) := by
    refine helps_act (fun _ _ _ _ h => h.1.ne_localHealthy) (fun _ _ => rfl) (fun _ _ => rfl)
      (fun err _ _ _ h => ⟨h.1, fun issue hr => by cases hr⟩) (fun o w hinv hw => ?_)
      fun o w hw => ⟨hw.1, fun issue _ => ⟨hw.2, by rw [hhanded.new]⟩⟩
    obtain ⟨⟨⟨plan, hp, hphase, hhanded⟩, hback⟩, -⟩ := hw.2.2
    exact ⟨.switching hp hphase hhanded hback, hinv.task⟩
  unfold confirmUpgrade
  refine rg_bind helperRely_refl hwait fun r => ?_
  cases r with
  | error err =>
    exact (helps_rollbackUpgrade hhanded tries err).mono (fun _ _ h => ⟨h.1, h.2.1, h.2.2.1⟩)
      fun _ _ _ h => h
  | ok issue =>
    have hhanded' : Handed site old { plan with localIssue := issue, phase := .localHealthy } :=
      ⟨hhanded.taskId, hhanded.old, hhanded.new⟩
    have hsave : Helps site old
        (Owns site fun p files healthy => Switching site old p files ∧
          ∀ issue', (.ok issue : Result String) = .ok issue' → Confirmed site files healthy)
        (save { plan with localIssue := issue, phase := .localHealthy }) fun _ =>
          Owns site fun _ files healthy => Confirmed site files healthy := by
      refine helps_act (fun _ _ _ _ h => h.1.ne_localHealthy) (fun _ _ => rfl) (fun _ _ => rfl)
        (fun err _ _ _ h => h.2 issue rfl) (fun o w _ hw => ?_) fun o w hw => hw.2 issue rfl
      have hsaved := hw.2.2.1.saved hhanded'.taskId
      obtain ⟨hinstalled, hhealthy⟩ := hw.2.2.2 issue rfl
      refine ⟨.healthy hsaved rfl hhanded' hinstalled hhealthy, fun plan' hplan => ?_⟩
      obtain rfl := Option.some.inj (hsaved.symm.trans hplan)
      exact .inr hhanded.taskId
    refine rg_bind helperRely_refl hsave fun r => ?_
    cases r with
    | error err => exact helps_done _
    | ok _ =>
      refine rg_bind helperRely_refl (helps_publish _ _ _) fun _ => ?_
      exact helps_finish_owns hhanded'.taskId (fun _ _ _ _ h => h) (fun h => by cases h) _ _ _ _

/-- The verified candidate is still there. -/
def Candidate (site : Site) (files : File → Option String) : Prop :=
  files .candidate = some (newDigest site)

theorem helps_switchBinary {plan : Plan} (hhanded : Handed site old plan) (tries : ℕ) :
    Helps site old (Owns site fun p files _ => Switching site old p files ∧ Candidate site files)
      (switchBinary site tries plan) fun _ _ => True := by
  have hrollback : ∀ (plan' : Plan) (C : (File → Option String) → Prop) cause,
      Handed site old plan' →
      Helps site old (Owns site fun p files _ => Switching site old p files ∧ C files)
        (rollbackUpgrade site tries plan' cause) fun _ _ => True :=
    fun plan' C cause hplan' => (helps_rollbackUpgrade hplan' tries cause).mono
      (fun _ _ h => ⟨h.1, h.2.1, h.2.2.1⟩) fun _ _ _ h => h
  have hrename : Helps site old
      (Owns site fun p files _ => Switching site old p files ∧ Candidate site files)
      (rename .candidate .installedBinary) fun r => Owns site fun p files _ =>
        Switching site old p files ∧ (r = .ok () → Installed site files) := by
    refine helps_replace ?_ ?_ ?_ ?_ (fun err _ _ h => by cases h) ?_
    all_goals intro o w
    all_goals cases hcandidate : w.files .candidate
    all_goals simp_all [World.write, Candidate, Installed]
  have hhanded' : Handed site old { plan with phase := .starting } :=
    ⟨hhanded.taskId, hhanded.old, hhanded.new⟩
  unfold switchBinary
  refine rg_bind helperRely_refl (helps_publish _ _ _) fun _ => ?_
  refine rg_bind helperRely_refl helps_command fun r => ?_
  cases r with
  | error err => exact hrollback plan _ err hhanded
  | ok _ =>
  refine rg_bind helperRely_refl helps_command fun r => ?_
  cases r with
  | error err => exact hrollback plan _ err hhanded
  | ok _ =>
  refine rg_bind helperRely_refl helps_command fun r => ?_
  cases r with
  | error err => exact hrollback plan _ err hhanded
  | ok _ =>
  refine rg_bind helperRely_refl hrename fun r => ?_
  cases r with
  | error err =>
    exact hrollback plan (fun files => _ = _ → Installed site files) err hhanded
  | ok _ =>
  refine rg_bind helperRely_refl (helps_save_switching (.inr (.inl rfl)) hhanded'
    (C := fun files => (_ : Result Unit) = .ok () → Installed site files)) fun r => ?_
  cases r with
  | error err => exact hrollback _ (fun files => _ = _ → Installed site files) err hhanded'
  | ok _ =>
  refine rg_bind helperRely_refl (helps_publish _ _ _) fun _ => ?_
  refine rg_bind helperRely_refl helps_command fun r => ?_
  cases r with
  | error err => exact hrollback _ (fun files => _ = _ → Installed site files) err hhanded'
  | ok _ =>
    exact (helps_confirmUpgrade hhanded' tries).mono
      (fun _ _ h => ⟨h.1, h.2.1, h.2.2.1, h.2.2.2 rfl⟩) fun _ _ _ h => h

theorem helps_startUpgrade {plan : Plan} (hphase : plan.phase = .updaterReady)
    (hhanded : Handed site old plan) (tries : ℕ) :
    Helps site old (Owns site fun p files _ => Ready old plan p files)
      (startUpgrade site tries plan) fun _ _ => True := by
  -- Whatever else is known of the files, the old binary is installed.
  have hfail : ∀ (C : (File → Option String) → Prop) message,
      Helps site old (Owns site fun p files _ => Ready old plan p files ∧ C files)
        (failBeforeSwitch site tries plan message) fun _ _ => True :=
    fun C message => helps_failBeforeSwitch hhanded.taskId tries message fun _ _ _ h => h.1.2.1
  have hcandidate : Helps site old (Owns site fun p files _ => Ready old plan p files)
      (fileSHA256 .candidate) fun r => Owns site fun p files _ =>
        Ready old plan p files ∧ (r = .ok plan.newSha256 → Candidate site files) :=
    (helps_fileSHA256 .candidate).mono (fun _ _ h => h) fun _ _ _ h =>
      ⟨h.1, h.2.1, h.2.2.1, fun hr => (h.2.2.2 _ hr).trans (congrArg some hhanded.new)⟩
  have hhanded' : Handed site old { plan with phase := .switching } :=
    ⟨hhanded.taskId, hhanded.old, hhanded.new⟩
  unfold startUpgrade
  refine rg_bind helperRely_refl hcandidate fun r => ?_
  cases r with
  | error err => exact hfail (fun files => _ = _ → Candidate site files) _
  | ok candidateHash =>
  refine rg_ite (fun _ => hfail (fun files => _ = _ → Candidate site files) _) fun hhash => ?_
  obtain rfl := not_not.1 hhash
  have hpost : ∀ {x : Run (Result Unit)},
      Helps site old (Owns site fun p files _ => Ready old plan p files ∧ Candidate site files) x
        (fun _ _ => True) →
      Helps site old (Owns site fun p files _ => Ready old plan p files ∧
        ((.ok plan.newSha256 : Result String) = .ok plan.newSha256 → Candidate site files)) x
        (fun _ _ => True) :=
    fun hx => hx.mono (fun _ _ h => ⟨h.1, h.2.1, h.2.2.1, h.2.2.2 rfl⟩) fun _ _ _ h => h
  apply hpost
  have hbackup : Helps site old
      (Owns site fun p files _ => Ready old plan p files ∧ Candidate site files)
      (fileSHA256 .backup) fun _ => Owns site fun p files _ =>
        Ready old plan p files ∧ Candidate site files :=
    (helps_fileSHA256 .backup).mono (fun _ _ h => h) fun _ _ _ h => ⟨h.1, h.2.1, h.2.2.1⟩
  refine rg_bind helperRely_refl hbackup fun r => ?_
  cases r with
  | error err => exact hfail _ _
  | ok oldHash =>
  refine rg_ite (fun _ => hfail _ _) fun _ => ?_
  refine rg_bind helperRely_refl helps_command fun r => ?_
  cases r with
  | error err => exact hfail _ _
  | ok _ =>
  refine rg_bind helperRely_refl helps_command fun r => ?_
  cases r with
  | error err => exact hfail _ _
  | ok _ =>
    have hsave : Helps site old
        (Owns site fun p files _ => Ready old plan p files ∧ Candidate site files)
        (save { plan with phase := .switching }) fun r => Owns site fun p files _ =>
          r = .ok () → Switching site old p files ∧ Candidate site files := by
      have hsaved : savedPlan (some plan) { plan with phase := .switching } =
          some { plan with phase := .switching } :=
        savedPlan_of_open (by simp [hphase]) rfl
      refine helps_act ?_ (fun _ _ => rfl) (fun _ _ => rfl) (fun err _ _ _ h hr => by cases hr)
        (fun o w _ hw => ?_) fun o w hw _ => ?_
      · intro p files healthy plan' h hplan'
        obtain rfl := Option.some.inj (hplan'.symm.trans h.1.1)
        simp [hphase]
      · obtain ⟨⟨hplan, hinstalled, hback⟩, -⟩ := hw.2.2
        have hnew := (congrArg (savedPlan · { plan with phase := .switching }) hplan).trans hsaved
        refine ⟨.switching hnew (.inl rfl) hhanded' hback, fun plan' hplan' => ?_⟩
        obtain rfl := Option.some.inj (hnew.symm.trans hplan')
        exact .inr hhanded.taskId
      · obtain ⟨⟨hplan, hinstalled, hback⟩, hcandidate⟩ := hw
        have hnew := (congrArg (savedPlan · { plan with phase := .switching }) hplan).trans hsaved
        exact ⟨⟨⟨_, hnew, .inl rfl, hhanded'⟩, hback⟩, hcandidate⟩
    refine rg_bind helperRely_refl hsave fun r => ?_
    cases r with
    | error err => exact helps_done _
    | ok _ =>
      exact (helps_switchBinary hhanded' tries).mono (fun _ _ h => ⟨h.1, h.2.1, h.2.2 rfl⟩)
        fun _ _ _ h => h

/-- What a plan is worth once it was read. -/
def Loaded (site : Site) (plan : Plan) (w : World) : Prop :=
  w.helperUnit = true ∧ (Terminal site w ∨ Owns site (fun p _ _ => p = some plan) w)

/-- A helper is safe whenever it starts. -/
theorem helps_runUpgrade (tries : ℕ) :
    Helps site old (fun w => w.helperUnit = true) (runUpgrade site tries) fun _ _ => True := by
  have hstable : Stable (HelperRely site) (Inv site old) fun w => w.helperUnit = true :=
    fun w w' h hrely _ => hrely.unit h
  have hloaded : ∀ plan, Stable (HelperRely site) (Inv site old) (Loaded site plan) := by
    intro plan w w' h hrely hinv
    refine ⟨hrely.unit h.1, h.2.imp (fun ht => (hrely.kept ht).terminal ht) fun ho => ?_⟩
    exact lasting_owns.stable w w' ho hrely hinv
  unfold runUpgrade
  have hload : Helps site old (fun w => w.helperUnit = true) load fun r w =>
      ∀ plan, r = .ok (some plan) →
        Loaded site plan w ∧ (plan.phase = .completed ∨ plan.taskId = site.taskId) := by
    refine rg_look (fun w => (Progress.refl w).helperStep) hstable ?_ (fun _ _ => rfl) ?_ ?_
    · exact fun r w w' h hrely hinv plan hr =>
        ⟨hloaded plan w w' (h plan hr).1 hrely hinv, (h plan hr).2⟩
    · exact fun w err _ _ plan hr => by cases hr
    · intro w o hunit hinv plan hr
      have hplan : w.plan = some plan := Except.ok.inj hr
      refine ⟨⟨hunit, ?_⟩, hinv.task plan hplan⟩
      by_cases hterminal : Terminal site w
      · exact .inl hterminal
      · exact .inr ⟨hunit, hterminal, hplan⟩
  refine rg_bind helperRely_refl hload fun r => ?_
  cases r with
  | error err => exact helps_done _
  | ok loaded =>
  cases loaded with
  | none => exact helps_done _
  | some plan =>
  refine Rg.mono (P := fun w => Loaded site plan w ∧
    (plan.phase = .completed ∨ plan.taskId = site.taskId)) ?_ (fun _ _ h => h plan rfl)
    fun _ _ _ h => h
  refine rg_extract (fun _ _ h => h.2) fun htask => ?_
  refine rg_ite (fun _ => helps_done _) fun hopen => ?_
  have htask : plan.taskId = site.taskId := htask.resolve_left hopen
  have hread : Helps site old (fun w => Loaded site plan w ∧
      (plan.phase = .completed ∨ plan.taskId = site.taskId)) (storeTask plan.taskId) fun r w =>
      ∀ task, r = .ok task → (task.terminal = true → Reported site w) ∧
        (task.terminal ≠ true → Owns site (fun p _ _ => p = some plan) w) := by
    refine rg_look (fun w => (Progress.refl w).helperStep)
      (fun w w' h hrely hinv => ⟨hloaded plan w w' h.1 hrely hinv, h.2⟩) ?_ (fun _ _ => rfl) ?_ ?_
    · exact fun r w w' h hrely hinv task hr =>
        ⟨fun ht => lasting_reported.stable w w' ((h task hr).1 ht) hrely hinv,
          fun ht => lasting_owns.stable w w' ((h task hr).2 ht) hrely hinv⟩
    · exact fun w err _ _ task hr => by cases hr
    · intro w o hw _ task hr
      rw [htask, found_eq_ok] at hr
      have hiff : Terminal site w ↔ task.terminal = true := terminal_iff hr
      refine ⟨fun ht => ⟨hw.1.1, hiff.2 ht⟩, fun ht => ?_⟩
      exact hw.1.2.resolve_left fun hterminal => ht (hiff.1 hterminal)
  refine rg_bind helperRely_refl hread fun r => ?_
  cases r with
  | error err => exact helps_done _
  | ok task =>
  refine rg_ite (fun _ => helps_done _) fun _ => ?_
  refine rg_ite (fun ht => ?_) fun ht => ?_
  · refine Rg.mono (P := Reported site) ?_ (fun _ _ h => (h task rfl).1 ht) fun _ _ _ h => h
    exact helps_finish lasting_reported (fun _ h => h.1) htask
      (fun _ _ _ h hrunning => absurd h.2 hrunning)
      (fun _ _ _ _ h hrunning => absurd h.2 hrunning) _ _ _ _
  · refine Rg.mono (P := Owns site fun p _ _ => p = some plan) ?_
      (fun _ _ h => (h task rfl).2 ht) fun _ _ _ h => h
    intro w howns hinv
    rcases howns.sound hinv with ⟨hphase, hhanded, hready⟩ | ⟨hphase, hhanded, hswitching⟩ |
      ⟨hphase, hconfirmed⟩ | hcompleted
    · rw [if_neg (by simp [hphase]), if_neg (by simp [hphase])]
      exact helps_startUpgrade hphase hhanded tries w hready hinv
    · rw [if_neg (by rcases hphase with h | h | h <;> simp [h]),
        if_pos (by rcases hphase with h | h | h <;> simp [h])]
      exact helps_rollbackUpgrade hhanded tries _ w hswitching hinv
    · rw [if_pos (.inl hphase)]
      exact helps_finish_owns htask (fun _ _ _ _ h => h) (fun h => by cases h) _ _ _ _ w
        hconfirmed hinv
    · exact absurd hcompleted hopen

end Helper

end Bifurcation.Daemon.Updater
