import Bifurcation.Daemon.UpgradeHelper

/-!
# The service keeps the invariant

The recovery and the daemon are safe as long as their steps are fair: they touch the plan and the
files only while no helper runs and the task has no result. The hand-off is the step that gives
both to the helper.
-/

namespace Bifurcation.Daemon.Updater

open Thread

section Service

variable {site : Site} {old : String} {w w' : World} {α β : Type}
  {A : Option Plan → (File → Option String) → Option String → Prop}
  {B : Result α → Option Plan → (File → Option String) → Option String → Prop}

/-! ## Steps of the service -/

theorem daemonRely_refl (w : World) : DaemonRely site w w := .refl w

theorem progress_helperRely (w w' : World) (h : Progress site w w') : HelperRely site w w' :=
  h.helperRely

theorem stable_terminal' : Stable (DaemonRely site) (Inv site old) (Terminal site) :=
  fun _ _ h hrely _ => (hrely.kept h).terminal h

theorem lasting_terminal : Lasting (DaemonRely site) site old (Terminal site) :=
  ⟨stable_terminal', fun _ _ h hprogress => (hprogress.kept' h).terminal h⟩

theorem serves_done {P : World → Prop} (a : β) :
    Serves site old P (pure a) fun _ _ => True :=
  rg_pure stable_true fun _ _ _ => trivial

/-- A step while no helper runs and the task has no result. -/
theorem serves_alone {f : Answer → World → Result α × World}
    (hjournal : ∀ o w, (f o w).2.journal = w.journal)
    (hunit : ∀ o w, (f o w).2.helperUnit = w.helperUnit)
    (htask : ∀ o w, Inv site old w → ∀ plan, (f o w).2.plan = some plan →
      plan.phase = .completed ∨ plan.taskId = site.taskId)
    (herror : ∀ err p files healthy, A p files healthy → B (.error err) p files healthy)
    (h : ∀ o w, Inv site old w → Alone site A w → Fair o w (f o w).2 → Sound site old (f o w).2 ∧
      B (f o w).1 (f o w).2.plan (f o w).2.files (f o w).2.healthy) :
    Serves site old (Alone site A) (attempt f) fun r => Alone site (B r) := by
  refine rg_atomic lasting_alone.stable (fun r => lasting_alone.stable) fun w o hw hinv hfair => ?_
  have halone := hw
  obtain ⟨hrunning, hhelper, hA⟩ := hw
  cases herr : o.error with
  | some err => exact ⟨.refl w, hinv, hrunning, hhelper, herror _ _ _ _ hA⟩
  | none =>
    simp only [herr] at hfair
    have hrunning' : ¬ Terminal site (f o w).2 := by
      rw [Terminal, outcome, hjournal]
      exact hrunning
    obtain ⟨hsound, hB⟩ := h o w hinv halone hfair
    refine ⟨⟨fun hon => ?_, fun hon => ?_, fun ht => absurd ht hrunning⟩,
      ⟨.of_running hrunning', fun _ => hsound, htask o w hinv⟩,
      hrunning', (hunit o w).trans hhelper, hB⟩
    · rw [hhelper] at hon
      cases hon
    · rw [hhelper] at hon
      cases hon

/-- A step that leaves the installed binary, once the task has a result. -/
theorem serves_terminal {f : Answer → World → Result α × World}
    (hjournal : ∀ o w, (f o w).2.journal = w.journal)
    (hunit : ∀ o w, (f o w).2.helperUnit = w.helperUnit)
    (htask : ∀ o w, Inv site old w → ∀ plan, (f o w).2.plan = some plan →
      plan.phase = .completed ∨ plan.taskId = site.taskId)
    (hkept : ∀ o w, (f o w).2.files .installedBinary = w.files .installedBinary ∧
      (f o w).2.healthy = w.healthy ∧ (f o w).2.replaced = w.replaced) :
    Serves site old (Terminal site) (attempt f) fun _ => Terminal site := by
  refine rg_atomic stable_terminal' (fun _ => stable_terminal') fun w o hw hinv _ => ?_
  cases herr : o.error with
  | some err => exact ⟨.refl w, hinv, hw⟩
  | none =>
    obtain ⟨hinstalled, hhealthy, hreplaced⟩ := hkept o w
    have hout : outcome site (f o w).2 = outcome site w := by rw [outcome, hjournal]; rfl
    have hk : Kept site w (f o w).2 := ⟨hout, hinstalled, hhealthy, hreplaced⟩
    have hterminal := hk.terminal hw
    exact ⟨⟨fun hon => (hunit o w).trans hon, fun _ hrunning => absurd hw hrunning, fun _ => hk⟩,
      ⟨hinv.truthful.congr hout hinstalled hhealthy, fun h => absurd hterminal h,
        htask o w hinv⟩, hterminal⟩

/-- A step that leaves the installed binary. -/
theorem serves_unless {f : Answer → World → Result α × World}
    (hjournal : ∀ o w, (f o w).2.journal = w.journal)
    (hunit : ∀ o w, (f o w).2.helperUnit = w.helperUnit)
    (htask : ∀ o w, Inv site old w → ∀ plan, (f o w).2.plan = some plan →
      plan.phase = .completed ∨ plan.taskId = site.taskId)
    (hkept : ∀ o w, (f o w).2.files .installedBinary = w.files .installedBinary ∧
      (f o w).2.healthy = w.healthy ∧ (f o w).2.replaced = w.replaced)
    (herror : ∀ err p files healthy, A p files healthy → B (.error err) p files healthy)
    (h : ∀ o w, Inv site old w → Alone site A w → Sound site old (f o w).2 ∧
      B (f o w).1 (f o w).2.plan (f o w).2.files (f o w).2.healthy) :
    Serves site old (Unless site A) (attempt f) fun r => Unless site (B r) :=
  rg_or
    ((serves_terminal hjournal hunit htask hkept).mono (fun _ _ h => h) fun _ _ _ h => .inl h)
    ((serves_alone hjournal hunit htask herror fun o w hinv hw _ => h o w hinv hw).mono
      (fun _ _ h => h) fun _ _ _ h => .inr h)

/-- Whatever is saved is a plan of the task. -/
theorem savedPlan_task {plan : Plan} (htask : plan.taskId = site.taskId) (hinv : Inv site old w)
    (plan' : Plan) (h : savedPlan w.plan plan = some plan') :
    plan'.phase = .completed ∨ plan'.taskId = site.taskId := by
  rcases savedPlan_cases w.plan plan with hsaved | hsaved
  · exact hinv.task plan' (hsaved.symm.trans h)
  · obtain rfl := Option.some.inj (hsaved.symm.trans h)
    exact .inr htask

/-- Saving a plan once the task has a result. -/
theorem serves_save_terminal {plan : Plan} (htask : plan.taskId = site.taskId) :
    Serves site old (Terminal site) (save plan) fun _ => Terminal site :=
  serves_terminal (fun _ _ => rfl) (fun _ _ => rfl) (fun _ _ hinv => savedPlan_task htask hinv)
    fun _ _ => ⟨rfl, rfl, rfl⟩

theorem serves_command {P : World → Prop} (hP : Lasting (DaemonRely site) site old P) :
    Serves site old P command fun _ => P :=
  rg_quiet progress_helperRely hP fun _ _ => rfl

theorem serves_publish {P : World → Prop} (hP : Lasting (DaemonRely site) site old P)
    (phase version message : String) :
    Serves site old P (publish site phase version message) fun _ => P :=
  rg_publish daemonRely_refl progress_helperRely hP phase version message

/-- Reading the row of the task. -/
theorem serves_storeTask {P : World → Prop} (hP : Stable (DaemonRely site) (Inv site old) P) :
    Serves site old P (storeTask site.taskId) fun r w =>
      P w ∧ ∀ task, r = .ok task → task.terminal = true → Terminal site w := by
  refine rg_look (fun w => .refl w) hP ?_ (fun _ _ => rfl) ?_ ?_
  · exact fun r w w' h hrely hinv => ⟨hP w w' h.1 hrely hinv, fun task hr ht =>
      stable_terminal' w w' (h.2 task hr ht) hrely hinv⟩
  · exact fun w err hw _ => ⟨hw, fun task hr => by cases hr⟩
  · intro w o hw _
    refine ⟨hw, fun task hr ht => ?_⟩
    exact (terminal_iff (found_eq_ok.1 hr)).2 ht

/-- Reading the row of the task while no helper runs. -/
theorem serves_storeTask_unless :
    Serves site old (Unless site A) (storeTask site.taskId) fun r w =>
      ∀ task, r = .ok task → (task.terminal = true → Terminal site w) ∧
        (task.terminal ≠ true → Alone site A w) := by
  refine rg_look (fun w => .refl w) lasting_unless.stable ?_ (fun _ _ => rfl) ?_ ?_
  · exact fun r w w' h hrely hinv task hr =>
      ⟨fun ht => stable_terminal' w w' ((h task hr).1 ht) hrely hinv,
        fun ht => lasting_alone.stable w w' ((h task hr).2 ht) hrely hinv⟩
  · exact fun w err _ _ task hr => by cases hr
  · intro w o hw _ task hr
    have hiff : Terminal site w ↔ task.terminal = true := terminal_iff (found_eq_ok.1 hr)
    exact ⟨hiff.2, fun ht => hw.resolve_left fun hterminal => ht (hiff.1 hterminal)⟩

/-- Storing a result while no helper runs. -/
theorem serves_persist_result {success : Bool} {errorCode : String}
    (hsucceeded : success = true → ∀ p files healthy, A p files healthy →
      Confirmed site files healthy)
    (hfailed : success = false → errorCode ≠ "ROLLBACK_FAILED" → ∀ p files healthy,
      A p files healthy → files .installedBinary = some old)
    (phase message version : String) :
    Serves site old (Unless site A) (persist site phase true success errorCode message version)
      fun r w => ∀ row, r = .ok row → Terminal site w := by
  have halone : ∀ w, Unless site A w → ¬ Terminal site w → Alone site A w :=
    fun w h hrunning => h.resolve_left hrunning
  refine rg_persist_result daemonRely_refl progress_helperRely lasting_unless stable_terminal'
    stable_terminal' ?_ ?_ ?_ fun _ _ _ _ h => h
  · exact fun hs w _ h hrunning => hsucceeded hs _ _ _ (halone w h hrunning).2.2
  · exact fun hs herr w _ h hrunning => hfailed hs herr _ _ _ (halone w h hrunning).2.2
  · intro w w' _ h hrunning hsame _
    refine ⟨fun hon => hsame.helperUnit.trans hon, fun hon => ?_, fun ht => absurd ht hrunning⟩
    rw [(halone w h hrunning).2.1] at hon
    cases hon

/-! ## The recovery -/

/-- The binary of the backup is installed. -/
def Restored (old : String) (files : File → Option String) : Prop :=
  files .installedBinary = some old ∧ files .backup = some old

/-- Putting the backup back is sound but for a plan that says `local_healthy`. -/
theorem Sound.restore (h : Sound site old w) (hbackup : w.files .backup = some old)
    (hlocal : ∀ plan, w.plan = some plan → plan.phase ≠ .localHealthy) :
    Sound site old (w.write .installedBinary (some old)) := by
  have hinstalled : (w.write .installedBinary (some old)).files .installedBinary = some old := by
    simp [World.write]
  have hback : (w.write .installedBinary (some old)).files .backup = some old := by
    simpa [World.write] using hbackup
  cases h with
  | idle hplan _ hhelper => exact .idle hplan hinstalled hhelper
  | ready hplan hphase hhanded _ _ => exact .ready hplan hphase hhanded hinstalled hback
  | switching hplan hphase hhanded _ => exact .switching hplan hphase hhanded hback
  | healthy hplan hphase _ _ _ => exact absurd hphase (hlocal _ hplan)
  | restored hplan hphase hhanded _ _ hhelper =>
    exact .restored hplan hphase hhanded hinstalled hback hhelper

theorem serves_restoreBeforeStart {plan : Plan} (hhanded : Handed site old plan) :
    Serves site old (Alone site A) (restoreBeforeStart site plan) fun _ _ => True := by
  have hread : Serves site old (Alone site A) (fileSHA256 .backup) fun r =>
      Alone site fun _ files _ => r = .ok plan.oldSha256 → files .backup = some old := by
    refine rg_look (fun w => .refl w) lasting_alone.stable (fun r => lasting_alone.stable)
      (fun _ _ => rfl) ?_ ?_
    · exact fun w err hw _ => ⟨hw.1, hw.2.1, fun hr => by cases hr⟩
    · exact fun w o hw _ => ⟨hw.1, hw.2.1, fun hr => hhanded.old ▸ found_eq_ok.1 hr⟩
  unfold restoreBeforeStart
  refine rg_bind daemonRely_refl hread fun r => ?_
  cases r with
  | error err => exact serves_done _
  | ok digest =>
  refine rg_ite (fun _ => serves_done _) fun hdigest => ?_
  obtain rfl := not_not.1 hdigest
  have hcopy : Serves site old
      (Alone site fun _ files _ =>
        (.ok plan.oldSha256 : Result String) = .ok plan.oldSha256 → files .backup = some old)
      (copyAtomic .backup .installedBinary) fun r =>
        Alone site fun _ files _ => r = .ok () → Restored old files := by
    refine serves_alone ?_ ?_ ?_ (fun err _ _ _ _ hr => by cases hr) ?_
    · intro o w
      cases w.files .backup <;> rfl
    · intro o w
      cases w.files .backup <;> rfl
    · intro o w hinv
      cases w.files .backup <;> exact hinv.task
    · intro o w hinv hw hfair
      have hback : w.files .backup = some old := hw.2.2 rfl
      simp only [hback] at hfair ⊢
      refine ⟨(hinv.sound hw.1).restore hback fun plan' hplan' hphase => ?_,
        fun _ => ⟨by simp [World.write], by simpa [World.write] using hback⟩⟩
      have hfresh := hfair.fresh plan' hplan' hphase
      simp [World.write] at hfresh
  refine rg_bind daemonRely_refl hcopy fun r => ?_
  cases r with
  | error err => exact serves_done _
  | ok _ =>
  refine rg_bind daemonRely_refl (rg_persist_running daemonRely_refl progress_helperRely
    lasting_alone _ _ _ _) fun r => ?_
  cases r with
  | error err => exact serves_done _
  | ok _ =>
    have hsave : Serves site old
        (Alone site fun _ files _ => (.ok () : Result Unit) = .ok () → Restored old files)
        (save { plan with phase := .restoredPendingHealth }) fun _ => Alone site fun _ _ _ => True := by
      refine serves_alone (fun _ _ => rfl) (fun _ _ => rfl)
        (fun _ _ hinv => savedPlan_task hhanded.taskId hinv) (fun _ _ _ _ _ => trivial)
        fun o w hinv hw _ => ⟨?_, trivial⟩
      obtain ⟨hinstalled, hback⟩ := hw.2.2 rfl
      rcases savedPlan_cases w.plan { plan with phase := .restoredPendingHealth } with hsaved | hsaved
      · exact (hinv.sound hw.1).congr ⟨hsaved, rfl, rfl, rfl, rfl⟩
      · exact .restored hsaved rfl ⟨hhanded.taskId, hhanded.old, hhanded.new⟩ hinstalled hback hw.2.1
    exact hsave.mono (fun _ _ h => h) fun _ _ _ _ => trivial

/-- What a plan the recovery read still says, while the task has no result. A helper may have
moved on from it, but not from `local_healthy`. -/
def Recalled (site : Site) (old : String) (plan : Plan) (p : Option Plan)
    (files : File → Option String) (healthy : Option String) : Prop :=
  (plan.phase = .completed ∨ Handed site old plan) ∧ plan.phase ≠ .resultPendingAck ∧
    (plan.phase = .localHealthy → p = some plan ∧ Confirmed site files healthy)

theorem stable_recalled (plan : Plan) : Stable (DaemonRely site) (Inv site old) fun w =>
    Terminal site w ∨ Recalled site old plan w.plan w.files w.healthy := by
  intro w w' h hrely hinv
  by_cases hterminal' : Terminal site w'
  · exact .inl hterminal'
  · have hrunning : ¬ Terminal site w := fun ht => hterminal' ((hrely.kept ht).terminal ht)
    obtain ⟨hhanded, hphase, hlocal⟩ := h.resolve_left hrunning
    refine .inr ⟨hhanded, hphase, fun hp => ?_⟩
    obtain ⟨hplan, hinstalled, hhealthy⟩ := hlocal hp
    obtain ⟨hplan', hinstalled', hhealthy'⟩ := hrely.healthy plan hplan hp hterminal'
    exact ⟨hplan'.trans hplan, hinstalled'.trans hinstalled, hhealthy'.trans hhealthy⟩

theorem Sound.of_restored (h : Sound site old w) {plan : Plan} (hplan : w.plan = some plan)
    (hrestored : plan.phase = .restoredPendingHealth) :
    w.files .installedBinary = some old ∧ w.helperUnit = false := by
  cases h with
  | idle hidle _ _ => simp [hidle plan hplan] at hrestored
  | ready hp hphase _ _ _ =>
    obtain rfl := Option.some.inj (hplan.symm.trans hp)
    simp [hphase] at hrestored
  | switching hp hphase _ _ =>
    obtain rfl := Option.some.inj (hplan.symm.trans hp)
    simp [hrestored] at hphase
  | healthy hp hphase _ _ _ =>
    obtain rfl := Option.some.inj (hplan.symm.trans hp)
    simp [hphase] at hrestored
  | restored hp _ _ hinstalled _ hhelper => exact ⟨hinstalled, hhelper⟩

theorem Sound.recalled (h : Sound site old w) {plan : Plan} (hplan : w.plan = some plan) :
    Recalled site old plan w.plan w.files w.healthy := by
  cases h with
  | idle hidle _ _ =>
    have hphase := hidle plan hplan
    exact ⟨.inl hphase, by simp [hphase], fun h => by simp [hphase] at h⟩
  | ready hp hphase hhanded _ _ =>
    obtain rfl := Option.some.inj (hplan.symm.trans hp)
    exact ⟨.inr hhanded, by simp [hphase], fun h => by simp [hphase] at h⟩
  | switching hp hphase hhanded _ =>
    obtain rfl := Option.some.inj (hplan.symm.trans hp)
    exact ⟨.inr hhanded, fun h => by simp [h] at hphase, fun h => by simp [h] at hphase⟩
  | healthy hp hphase hhanded hinstalled hhealthy =>
    obtain rfl := Option.some.inj (hplan.symm.trans hp)
    exact ⟨.inr hhanded, by simp [hphase], fun _ => ⟨hp, hinstalled, hhealthy⟩⟩
  | restored hp hphase hhanded _ _ _ =>
    obtain rfl := Option.some.inj (hplan.symm.trans hp)
    exact ⟨.inr hhanded, by simp [hphase], fun h => by simp [hphase] at h⟩

/-- What the recovery learns from the plan file. -/
theorem serves_load_recalled :
    Serves site old (fun _ => True) load fun r w => ∀ plan, r = .ok (some plan) →
      (plan.phase = .completed ∨ plan.taskId = site.taskId) ∧
        (Terminal site w ∨ Recalled site old plan w.plan w.files w.healthy) := by
  refine rg_look (fun w => .refl w) stable_true ?_ (fun _ _ => rfl) ?_ ?_
  · exact fun r w w' h hrely hinv plan hr =>
      ⟨(h plan hr).1, stable_recalled plan w w' (h plan hr).2 hrely hinv⟩
  · exact fun w err _ _ plan hr => by cases hr
  · intro w o _ hinv plan hr
    have hplan : w.plan = some plan := Except.ok.inj hr
    refine ⟨hinv.task plan hplan, ?_⟩
    by_cases hterminal : Terminal site w
    · exact .inl hterminal
    · exact .inr ((hinv.sound hterminal).recalled hplan)

theorem serves_recoverBeforeStart :
    Serves site old (fun _ => True) (recoverBeforeStart site) fun _ _ => True := by
  unfold recoverBeforeStart
  refine rg_bind daemonRely_refl serves_load_recalled fun r => ?_
  cases r with
  | error err => exact serves_done _
  | ok loaded =>
  cases loaded with
  | none => exact serves_done _
  | some plan =>
  refine Rg.mono (P := fun w => (plan.phase = .completed ∨ plan.taskId = site.taskId) ∧
    (Terminal site w ∨ Recalled site old plan w.plan w.files w.healthy)) ?_
    (fun _ _ h => h plan rfl) fun _ _ _ h => h
  refine rg_extract (fun _ _ h => h.1) fun htask => ?_
  refine rg_ite (fun _ => serves_done _) fun hopen => ?_
  have htask : plan.taskId = site.taskId := htask.resolve_left hopen
  have hactive : Serves site old (fun w => (plan.phase = .completed ∨ plan.taskId = site.taskId) ∧
      (Terminal site w ∨ Recalled site old plan w.plan w.files w.healthy)) helperActive
      fun a w => a = false → Unless site (Recalled site old plan) w := by
    refine rg_atomic (fun w w' h hrely hinv =>
      ⟨h.1, stable_recalled plan w w' h.2 hrely hinv⟩)
      (fun a w w' h hrely hinv ha => lasting_unless.stable w w' (h ha) hrely hinv)
      fun w o hw hinv _ => ⟨.refl w, hinv, fun ha => ?_⟩
    by_cases hterminal : Terminal site w
    · exact .inl hterminal
    · exact .inr ⟨hterminal, ha, hw.2.resolve_left hterminal⟩
  refine rg_bind daemonRely_refl hactive fun a => ?_
  refine rg_ite (fun _ => serves_done _) fun ha => ?_
  have ha : a = false := by simpa using ha
  refine Rg.mono (P := Unless site (Recalled site old plan)) ?_ (fun _ _ h => h ha)
    fun _ _ _ h => h
  rw [htask]
  refine rg_bind daemonRely_refl serves_storeTask_unless fun r => ?_
  cases r with
  | error err => exact serves_done _
  | ok task =>
  refine rg_ite (fun _ => serves_done _) fun hrunning => ?_
  refine Rg.mono (P := Alone site (Recalled site old plan)) ?_
    (fun _ _ h => (h task rfl).2 hrunning) fun _ _ _ h => h
  refine rg_ite (fun hphase => ?_) fun hphase => ?_
  · have hpersist : Serves site old (Alone site (Recalled site old plan))
        (persist site "completed" true true "" "" plan.newVersion)
        fun r w => ∀ row, r = .ok row → Terminal site w :=
      (serves_persist_result
        (fun _ _ _ _ h => (h.2.2 (hphase.resolve_right h.2.1)).2) (fun h => by cases h) _ _ _).mono
        (fun _ _ h => .inr h) fun _ _ _ h => h
    refine rg_bind daemonRely_refl hpersist fun r => ?_
    cases r with
    | error err => exact serves_done _
    | ok _ => exact serves_done _
  · refine rg_extract (fun _ _ h => h.2.2.1.resolve_left hopen) fun hhanded => ?_
    exact serves_restoreBeforeStart hhanded

theorem serves_confirmRecoveryReady (exe : String) :
    Serves site old (fun _ => True) (confirmRecoveryReady site exe) fun _ _ => True := by
  have hload : Serves site old (fun _ => True) load fun r w => ∀ plan, r = .ok (some plan) →
      (plan.phase = .completed ∨ plan.taskId = site.taskId) ∧
        (plan.phase = .restoredPendingHealth →
          Unless site (fun _ files _ => files .installedBinary = some old) w) := by
    refine rg_look (fun w => .refl w) stable_true ?_ (fun _ _ => rfl) ?_ ?_
    · exact fun r w w' h hrely hinv plan hr => ⟨(h plan hr).1, fun hphase =>
        lasting_unless.stable w w' ((h plan hr).2 hphase) hrely hinv⟩
    · exact fun w err _ _ plan hr => by cases hr
    · intro w o _ hinv plan hr
      have hplan : w.plan = some plan := Except.ok.inj hr
      refine ⟨hinv.task plan hplan, fun hphase => ?_⟩
      by_cases hterminal : Terminal site w
      · exact .inl hterminal
      · obtain ⟨hinstalled, hhelper⟩ := (hinv.sound hterminal).of_restored hplan hphase
        exact .inr ⟨hterminal, hhelper, hinstalled⟩
  unfold confirmRecoveryReady
  refine rg_bind daemonRely_refl hload fun r => ?_
  cases r with
  | error err => exact serves_done _
  | ok loaded =>
  cases loaded with
  | none => exact serves_done _
  | some plan =>
  refine rg_ite (fun _ => serves_done _) fun hphase => ?_
  have hphase : plan.phase = .restoredPendingHealth := not_not.1 hphase
  refine rg_extract (fun _ _ h => (h plan rfl).1) fun htask => ?_
  have htask : plan.taskId = site.taskId := htask.resolve_left (by simp [hphase])
  refine Rg.mono (P := Unless site fun _ files _ => files .installedBinary = some old) ?_
    (fun _ _ h => (h plan rfl).2 hphase) fun _ _ _ h => h
  refine rg_bind daemonRely_refl (serves_command lasting_unless) fun r => ?_
  cases r with
  | error err => exact serves_done _
  | ok _ =>
  refine rg_ite (fun _ => serves_done _) fun _ => ?_
  refine rg_bind daemonRely_refl
    (serves_persist_result (fun h => by cases h) (fun _ _ _ _ _ h => h) _ _ _) fun r => ?_
  cases r with
  | error err => exact serves_done _
  | ok row =>
    have hsave : Serves site old (Terminal site) (save { plan with phase := .resultPendingAck })
        fun _ => Terminal site := serves_save_terminal htask
    exact hsave.mono (fun _ _ h => h row rfl) fun _ _ _ _ => trivial

/-! ## Reporting a result -/

theorem serves_acknowledge :
    Serves site old (Terminal site) (acknowledge site) fun _ _ => True := by
  unfold acknowledge
  refine rg_bind daemonRely_refl (rg_quiet progress_helperRely lasting_terminal fun _ _ => rfl)
    fun r => ?_
  cases r with
  | error err => exact serves_done _
  | ok loaded =>
  cases loaded with
  | none => exact serves_done _
  | some plan =>
  refine rg_ite (fun _ => serves_done _) fun htask => ?_
  have hsave : Serves site old (Terminal site) (save { plan with phase := .completed })
      fun _ => Terminal site := serves_save_terminal (not_not.1 htask)
  exact hsave.mono (fun _ _ h => h) fun _ _ _ _ => trivial

theorem serves_reportResult (journal : JournalRow) :
    Serves site old (Terminal site) (reportResult site journal) fun _ _ => True := by
  unfold reportResult
  cases resultReport site.codec site.installation journal with
  | none => exact serves_done _
  | some report =>
  refine rg_bind daemonRely_refl (rg_quiet progress_helperRely lasting_terminal fun _ _ => rfl)
    fun r => ?_
  cases r with
  | error err => exact serves_done _
  | ok response =>
  refine rg_ite (fun _ => serves_done _) fun _ => ?_
  refine rg_bind daemonRely_refl (rg_acknowledge progress_helperRely lasting_terminal _) fun r => ?_
  cases r with
  | error err => exact serves_done _
  | ok _ => exact serves_acknowledge

theorem serves_flushResults :
    Serves site old (fun _ => True) (flushResults site) fun _ _ => True := by
  unfold flushResults
  refine rg_bind daemonRely_refl (serves_storeTask stable_true) fun r => ?_
  cases r with
  | error err => exact serves_done _
  | ok journal =>
  refine rg_ite (fun _ => serves_done _) fun hpending => ?_
  have hterminal : journal.terminal = true := by
    cases hj : journal.terminal
    · exact absurd (.inl hj) hpending
    · rfl
  exact (serves_reportResult journal).mono (fun _ _ h => h.2 journal rfl hterminal)
    fun _ _ _ h => h

/-! ## The hand-off -/

/-- No upgrade is under way. -/
def Idle (old : String) (p : Option Plan) (files : File → Option String) : Prop :=
  (∀ plan, p = some plan → plan.phase = .completed) ∧ files .installedBinary = some old

/-- The binary is still the old one. -/
def Untouched (site : Site) (old : String) : World → Prop :=
  Unless site fun _ files _ => files .installedBinary = some old

theorem Sound.idle_or_handed (h : Sound site old w) :
    (w.helperUnit = false ∧ Idle old w.plan w.files) ∨ ∃ plan, w.plan = some plan ∧ Handed site old plan ∧
      plan.phase ≠ .completed := by
  cases h with
  | idle hplan hinstalled hhelper => exact .inl ⟨hhelper, hplan, hinstalled⟩
  | ready hp hphase hhanded _ _ => exact .inr ⟨_, hp, hhanded, by simp [hphase]⟩
  | switching hp hphase hhanded _ => exact .inr ⟨_, hp, hhanded, fun h => by simp [h] at hphase⟩
  | healthy hp hphase hhanded _ _ => exact .inr ⟨_, hp, hhanded, by simp [hphase]⟩
  | restored hp hphase hhanded _ _ _ => exact .inr ⟨_, hp, hhanded, by simp [hphase]⟩

/-- A file that is not the installed binary is written while no upgrade is under way. -/
theorem serves_write {f : Answer → World → Result α × World}
    {C : (File → Option String) → Prop} {D : Result α → (File → Option String) → Prop}
    (hf : ∀ o w, (f o w).2 = w ∨ ∃ file digest, file ≠ .installedBinary ∧
      (f o w).2 = w.write file digest)
    (herror : ∀ err files, C files → D (.error err) files)
    (h : ∀ o w, C w.files → w.files .installedBinary = some old → D (f o w).1 (f o w).2.files) :
    Serves site old (Unless site fun p files _ => Idle old p files ∧ C files) (attempt f)
      fun r => Unless site fun p files _ => Idle old p files ∧ D r files := by
  have hsame : ∀ o w, (f o w).2.journal = w.journal ∧ (f o w).2.helperUnit = w.helperUnit ∧
      (f o w).2.plan = w.plan ∧ (f o w).2.files .installedBinary = w.files .installedBinary ∧
      (f o w).2.healthy = w.healthy ∧ (f o w).2.replaced = w.replaced := by
    intro o w
    rcases hf o w with heq | ⟨file, digest, hfile, heq⟩
    · rw [heq]
      exact ⟨rfl, rfl, rfl, rfl, rfl, rfl⟩
    · rw [heq]
      exact ⟨rfl, rfl, rfl, by simp [World.write, hfile.symm], if_neg hfile, if_neg hfile⟩
  refine serves_unless (fun o w => (hsame o w).1) (fun o w => (hsame o w).2.1) ?_
    (fun o w => (hsame o w).2.2.2) (fun err _ files _ h => ⟨h.1, herror err files h.2⟩) ?_
  · intro o w hinv
    rw [(hsame o w).2.2.1]
    exact hinv.task
  · intro o w _ hw
    obtain ⟨-, hunit, hplan, hinstalled, -, -⟩ := hsame o w
    obtain ⟨-, hhelper, ⟨hidle, hold⟩, hC⟩ := hw
    have hidle' : Idle old (f o w).2.plan (f o w).2.files :=
      ⟨hplan ▸ hidle, hinstalled.trans hold⟩
    exact ⟨.idle hidle'.1 hidle'.2 (hunit.trans hhelper), hidle', h o w hC hold⟩

theorem serves_copyAtomic {source destination : File} (hdestination : destination ≠ .installedBinary)
    {C D : (File → Option String) → Prop}
    (h : ∀ files digest, C files → files .installedBinary = some old →
      files source = some digest → D (Function.update files destination (some digest))) :
    Serves site old (Unless site fun p files _ => Idle old p files ∧ C files)
      (copyAtomic source destination)
      fun r => Unless site fun p files _ => Idle old p files ∧ (r = .ok () → D files) := by
  refine serves_write (fun o w => ?_) (fun err _ _ hr => by cases hr) fun o w hC hold hr => ?_
  · cases hsource : w.files source with
    | none => exact .inl rfl
    | some digest => exact .inr ⟨destination, some digest, hdestination, rfl⟩
  · cases hsource : w.files source with
    | none => simp [hsource] at hr
    | some digest => exact h w.files digest hC hold hsource

theorem serves_ensureIdle {P : World → Prop} (hP : Lasting (DaemonRely site) site old P) :
    Serves site old P ensureIdle fun _ => P := by
  have hdone : ∀ r : Result Unit, Serves site old P (pure r) fun _ => P :=
    fun _ => rg_pure hP.stable fun _ _ h => h
  unfold ensureIdle
  refine rg_bind daemonRely_refl (rg_quiet progress_helperRely hP fun _ _ => rfl) fun r => ?_
  cases r with
  | error err => exact hdone _
  | ok loaded =>
  cases loaded with
  | none => exact hdone _
  | some plan =>
  refine rg_ite (fun _ => hdone _) fun _ => ?_
  refine rg_bind daemonRely_refl (rg_quiet progress_helperRely hP fun _ _ => rfl) fun r => ?_
  cases r with
  | error err => exact hdone _
  | ok task => exact rg_ite (fun _ => hdone _) fun _ => hdone _

/-- The plan of the task says `updater_ready`. -/
def Prepared (site : Site) (old : String) (plan : Plan) : World → Prop :=
  Unless site fun p files _ => Ready old plan p files ∧ Handed site old plan

/-- The helper is started, or nothing happens. -/
theorem serves_systemdRun {plan : Plan} (hphase : plan.phase = .updaterReady) :
    Serves site old (Prepared site old plan) systemdRun fun r w =>
      ∀ err, r = .error err → Prepared site old plan w := by
  refine rg_atomic lasting_unless.stable
    (fun r w w' h hrely hinv err hr => lasting_unless.stable w w' (h err hr) hrely hinv) ?_
  intro w o hw hinv hfair
  by_cases hunit : w.helperUnit = true
  · simp only [hunit, if_true]
    exact ⟨.refl w, hinv, fun _ _ => hw⟩
  · have hunit : w.helperUnit = false := by simpa using hunit
    simp only [hunit, Bool.false_eq_true, if_false] at hfair ⊢
    cases herr : o.error with
    | none =>
      refine ⟨⟨fun _ => rfl, fun hon => ?_, fun _ => ⟨rfl, rfl, rfl, rfl⟩⟩,
        ⟨hinv.truthful.congr rfl rfl rfl, fun hrunning => ?_, hinv.task⟩, fun err hr => by cases hr⟩
      · rw [hunit] at hon
        cases hon
      · obtain ⟨-, -, ⟨hplan, hinstalled, hbackup⟩, hhanded⟩ := hw.resolve_left hrunning
        exact .ready hplan hphase hhanded hinstalled hbackup
    | some err =>
      have hstarted : o.started = false := by
        by_contra hs
        simp only [herr, Bool.not_eq_false] at hfair hs
        have hnone := hfair.started hunit hs
        rw [herr] at hnone
        cases hnone
      simp only [hstarted]
      rw [← hunit]
      exact ⟨.refl w, hinv, fun _ _ => hw⟩

/-- What a failed hand-off leaves. -/
def Failed (site : Site) (old : String) (r : Option String) (w : World) : Prop :=
  ∀ err, r = some err → Untouched site old w

theorem stable_failed (r : Option String) :
    Stable (DaemonRely site) (Inv site old) (Failed site old r) :=
  fun w w' h hrely hinv err herr => lasting_unless.stable w w' (h err herr) hrely hinv

theorem serves_failed {P : World → Prop} (err : String)
    (h : ∀ w, P w → Untouched site old w) :
    Serves site old P (pure (some err)) (Failed site old) :=
  rg_pure (stable_failed _) fun w _ hw _ _ => h w hw

theorem serves_handOff {plan : Plan} (hphase : plan.phase = .updaterReady)
    (htask : plan.taskId = site.taskId) (hnew : plan.newSha256 = newDigest site) :
    Serves site old
      (Unless site fun p files _ => Idle old p files ∧ files .backup = some old ∧
        plan.oldSha256 = old)
      (handOff site plan) (Failed site old) := by
  unfold handOff
  have hsave : Serves site old
      (Unless site fun p files _ => Idle old p files ∧ files .backup = some old ∧
        plan.oldSha256 = old) (save plan) fun r => Unless site fun p files _ =>
          files .installedBinary = some old ∧
            (r = .ok () → Ready old plan p files ∧ Handed site old plan) := by
    have hsaved : ∀ p, savedPlan p plan = some plan ∨ ∃ before, p = some before ∧
        before.phase ≠ .completed := by
      intro p
      cases p with
      | none => exact .inl rfl
      | some before => exact .inl (by simp [savedPlan, hphase])
    refine serves_unless (fun _ _ => rfl) (fun _ _ => rfl)
      (fun _ _ hinv => savedPlan_task htask hinv) (fun _ _ => ⟨rfl, rfl, rfl⟩)
      (fun err _ _ _ h => ⟨h.1.2, fun hr => by cases hr⟩) fun o w _ hw => ?_
    obtain ⟨hidle, hback, hold⟩ := hw.2.2
    have hplan : savedPlan w.plan plan = some plan := by
      cases w.plan with
      | none => rfl
      | some before => simp [savedPlan, hphase]
    have hhanded : Handed site old plan := ⟨htask, hold, hnew⟩
    exact ⟨.ready hplan hphase hhanded hidle.2 hback, hidle.2,
      fun _ => ⟨⟨hplan, hidle.2, hback⟩, hhanded⟩⟩
  refine rg_bind daemonRely_refl hsave fun r => ?_
  cases r with
  | error err =>
    exact serves_failed err fun w h => h.imp_right fun h => ⟨h.1, h.2.1, h.2.2.1⟩
  | ok _ =>
  refine Rg.mono (P := Prepared site old plan) ?_
    (fun _ _ h => h.imp_right fun h => ⟨h.1, h.2.1, h.2.2.2 rfl⟩) fun _ _ _ h => h
  refine rg_bind daemonRely_refl (serves_publish lasting_unless _ _ _) fun _ => ?_
  refine rg_bind daemonRely_refl (serves_systemdRun hphase) fun r => ?_
  cases r with
  | ok _ => exact rg_pure (stable_failed _) fun w _ _ err herr => by cases herr
  | error err =>
    have hcomplete : Serves site old (Prepared site old plan) (save { plan with phase := .completed })
        fun _ => Untouched site old := by
      refine serves_unless (fun _ _ => rfl) (fun _ _ => rfl)
        (fun _ _ hinv => savedPlan_task htask hinv) (fun _ _ => ⟨rfl, rfl, rfl⟩)
        (fun err _ _ _ h => h.1.2.1) fun o w _ hw => ?_
      obtain ⟨-, hhelper, ⟨hplan, hinstalled, -⟩, -⟩ := hw
      refine ⟨.idle (fun plan' hplan' => ?_) hinstalled hhelper, hinstalled⟩
      have hsaved : savedPlan (some plan) { plan with phase := .completed } =
          some { plan with phase := .completed } :=
        savedPlan_of_open (by simp [hphase]) rfl
      have hnew := (congrArg (savedPlan · { plan with phase := .completed }) hplan).trans hsaved
      obtain rfl := Option.some.inj (hnew.symm.trans hplan')
      rfl
    refine Rg.mono (P := Prepared site old plan) ?_ (fun _ _ h => h err rfl) fun _ _ _ h => h
    exact rg_bind daemonRely_refl hcomplete fun _ => serves_failed err fun _ h => h

/-- The hand-off of an upgrade. -/
theorem serves_beginUpgrade (exe : String) :
    Serves site old (Unless site fun p files _ => Idle old p files) (beginUpgrade site exe)
      (Failed site old) := by
  have hfail : ∀ (C : (File → Option String) → Prop) err, Serves site old
      (Unless site fun p files _ => Idle old p files ∧ C files) (pure (some err))
      (Failed site old) :=
    fun C err => serves_failed err fun w h => h.imp_right fun h => ⟨h.1, h.2.1, h.2.2.1.2⟩
  have hcommand : ∀ C : (File → Option String) → Prop, Serves site old
      (Unless site fun p files _ => Idle old p files ∧ C files) command
      fun _ => Unless site fun p files _ => Idle old p files ∧ C files :=
    fun C => serves_command lasting_unless
  refine Rg.mono (P := Unless site fun p files _ => Idle old p files ∧ True) ?_
    (fun _ _ h => h.imp_right fun h => ⟨h.1, h.2.1, h.2.2, trivial⟩) fun _ _ _ h => h
  unfold beginUpgrade
  refine rg_bind daemonRely_refl (hcommand fun _ => True) fun r => ?_
  cases r with
  | error err => exact hfail _ err
  | ok _ =>
  refine rg_bind daemonRely_refl (serves_ensureIdle lasting_unless) fun r => ?_
  cases r with
  | error err => exact hfail _ err
  | ok _ =>
  refine rg_bind daemonRely_refl (serves_publish lasting_unless _ _ _) fun _ => ?_
  have hdownload : Serves site old (Unless site fun p files _ => Idle old p files ∧ True)
      (downloadBinary site) fun _ => Unless site fun p files _ => Idle old p files ∧ True :=
    serves_write (fun o w => .inr ⟨.download, _, by decide, rfl⟩) (fun _ _ h => h) fun _ _ h _ => h
  refine rg_bind daemonRely_refl hdownload fun r => ?_
  cases r with
  | error err => exact hfail _ err
  | ok _ =>
  refine rg_bind daemonRely_refl (hcommand fun _ => True) fun r => ?_
  cases r with
  | error err => exact hfail _ err
  | ok _ =>
  refine rg_bind daemonRely_refl (serves_publish lasting_unless _ _ _) fun _ => ?_
  have hdigest : Serves site old (Unless site fun p files _ => Idle old p files ∧ True)
      (fileSHA256 .installedBinary) fun r => Unless site fun p files _ =>
        Idle old p files ∧ ∀ digest, r = .ok digest → digest = old := by
    refine rg_look (fun w => .refl w) lasting_unless.stable (fun r => lasting_unless.stable)
      (fun _ _ => rfl) ?_ ?_
    · exact fun w err hw _ =>
        hw.imp_right fun h => ⟨h.1, h.2.1, h.2.2.1, fun digest hr => by cases hr⟩
    · refine fun w o hw _ => hw.imp_right fun h => ⟨h.1, h.2.1, h.2.2.1, fun digest hr => ?_⟩
      exact Option.some.inj ((found_eq_ok.1 hr).symm.trans h.2.2.1.2)
  refine rg_bind daemonRely_refl hdigest fun r => ?_
  cases r with
  | error err => exact hfail (fun _ => ∀ digest, _ = _ → digest = old) err
  | ok oldDigest =>
  refine Rg.mono (P := Unless site fun p files _ => Idle old p files ∧ oldDigest = old) ?_
    (fun _ _ h => h.imp_right fun h => ⟨h.1, h.2.1, h.2.2.1, h.2.2.2 oldDigest rfl⟩)
    fun _ _ _ h => h
  refine rg_ite (fun _ => hfail (fun _ => oldDigest = old) _) fun _ => ?_
  refine rg_bind daemonRely_refl (serves_copyAtomic (by decide)
    (D := fun files => files .backup = some old ∧ oldDigest = old) ?_) fun r => ?_
  · intro files digest holdDigest hinstalled hsource
    exact ⟨by simpa [hinstalled] using hsource.symm, holdDigest⟩
  cases r with
  | error err => exact hfail (fun files => _ = _ → files .backup = some old ∧ oldDigest = old) err
  | ok _ =>
  have hkeep : ∀ {x : Run (Option String)}, Serves site old
      (Unless site fun p files _ => Idle old p files ∧ files .backup = some old ∧ oldDigest = old)
      x (Failed site old) →
      Serves site old
        (Unless site fun p files _ => Idle old p files ∧ ((.ok () : Result Unit) = .ok () →
          files .backup = some old ∧ oldDigest = old)) x (Failed site old) :=
    fun hx => hx.mono (fun _ _ h => h.imp_right fun h => ⟨h.1, h.2.1, h.2.2.1, h.2.2.2 rfl⟩)
      fun _ _ _ h => h
  apply hkeep
  refine rg_bind daemonRely_refl (serves_copyAtomic (by decide)
    (D := fun files => files .backup = some old ∧ oldDigest = old) ?_) fun r => ?_
  · exact fun files digest h _ _ => ⟨by simpa using h.1, h.2⟩
  cases r with
  | error err => exact hfail (fun files => _ = _ → files .backup = some old ∧ oldDigest = old) err
  | ok _ =>
  apply hkeep
  refine rg_bind daemonRely_refl (serves_copyAtomic (by decide)
    (D := fun files => files .backup = some old ∧ oldDigest = old) ?_) fun r => ?_
  · exact fun files digest h _ _ => ⟨by simpa using h.1, h.2⟩
  cases r with
  | error err => exact hfail (fun files => _ = _ → files .backup = some old ∧ oldDigest = old) err
  | ok _ =>
  apply hkeep
  refine rg_bind daemonRely_refl (hcommand fun files =>
    files .backup = some old ∧ oldDigest = old) fun r => ?_
  cases r with
  | error err => exact hfail (fun files => files .backup = some old ∧ oldDigest = old) err
  | ok _ =>
    have hhandOff : Serves site old
        (Unless site fun p files _ => Idle old p files ∧ files .backup = some old ∧
          (handoffPlan site exe oldDigest).oldSha256 = old)
        (handOff site (handoffPlan site exe oldDigest)) (Failed site old) :=
      serves_handOff rfl rfl rfl
    exact hhandOff

/-! ## The daemon -/

theorem serves_active : Serves site old (fun _ => True) (active site) fun r w =>
    r = .ok false → Unless site (fun p files _ => Idle old p files) w := by
  have hstable : ∀ r : Result Bool, Stable (DaemonRely site) (Inv site old) fun w =>
      r = .ok false → Unless site (fun p files _ => Idle old p files) w :=
    fun r w w' h hrely hinv hr => lasting_unless.stable w w' (h hr) hrely hinv
  -- What the loaded plan says of an upgrade under way.
  have hload : Serves site old (fun _ => True) load fun r w => ∀ loaded, r = .ok loaded →
      (∀ plan, loaded = some plan → plan.taskId = site.taskId → plan.phase = .completed) →
        Unless site (fun p files _ => Idle old p files) w := by
    refine rg_look (fun w => .refl w) stable_true ?_ (fun _ _ => rfl) ?_ ?_
    · exact fun r w w' h hrely hinv loaded hr hplan =>
        lasting_unless.stable w w' (h loaded hr hplan) hrely hinv
    · exact fun w err _ _ loaded hr => by cases hr
    · intro w o _ hinv loaded hr hplan
      obtain rfl : w.plan = loaded := Except.ok.inj hr
      by_cases hterminal : Terminal site w
      · exact .inl hterminal
      · refine .inr ⟨hterminal, ?_⟩
        rcases (hinv.sound hterminal).idle_or_handed with hidle | ⟨plan, hp, hhanded, hphase⟩
        · exact hidle
        · exact absurd (hplan plan hp hhanded.taskId) hphase
  unfold active
  refine rg_bind daemonRely_refl hload fun r => ?_
  cases r with
  | error err => exact rg_pure (hstable _) fun w _ _ hr => by cases hr
  | ok loaded =>
  cases loaded with
  | none => exact rg_pure (hstable _) fun w _ h _ => h none rfl fun plan hplan => by cases hplan
  | some plan =>
    refine rg_pure (hstable _) fun w _ h hr => h (some plan) rfl fun plan' hplan htask => ?_
    obtain rfl := Option.some.inj hplan
    by_contra hphase
    simp [htask, hphase] at hr

theorem serves_storeFailure (exe err : String) :
    Serves site old (Untouched site old) (storeFailure site exe err) fun _ _ => True := by
  unfold storeFailure
  refine rg_bind daemonRely_refl (rg_quiet progress_helperRely lasting_unless fun _ _ => rfl)
    fun r => ?_
  cases r with
  | error err => exact serves_done _
  | ok journal =>
  dsimp only
  cases hencode : site.codec.marshal (finalReport site.taskId site.installation journal
      { errorCode := "UPDATE_PREFLIGHT_FAILED"
        message := err
        rollback := .notNeeded
        actualStatus := some (site.status (site.versionOf exe))
        diagnosticJson := [] }) with
  | none => exact serves_done _
  | some encoded =>
  have halone : ∀ w, Untouched site old w → ¬ Terminal site w →
      Alone site (fun _ files _ => files .installedBinary = some old) w :=
    fun w h hrunning => h.resolve_left hrunning
  have hstore : Serves site old (Untouched site old)
      (transact (transition site.taskId .failed (some encoded)))
      fun r w => ∀ row, r = .ok row → Terminal site w := by
    refine rg_transition_result progress_helperRely lasting_unless.stable stable_terminal'
      (.inr rfl) hencode (fun hs => by cases hs) ?_ ?_ fun _ _ _ _ h => h
    · exact fun _ _ w _ h hrunning => (halone w h hrunning).2.2
    · intro w w' _ h hrunning hsame _
      refine ⟨fun hon => hsame.helperUnit.trans hon, fun hon => ?_, fun ht => absurd ht hrunning⟩
      rw [(halone w h hrunning).2.1] at hon
      cases hon
  refine rg_bind daemonRely_refl hstore fun r => ?_
  cases r with
  | error err => exact serves_done _
  | ok row => exact (serves_reportResult row).mono (fun _ _ h => h row rfl) fun _ _ _ h => h

theorem serves_execute (exe : String) :
    Serves site old (fun _ => True) (execute site exe) fun _ _ => True := by
  have haccept : Serves site old (fun _ => True)
      (transact (acceptTask site.taskId site.payloadHash .upgradeDaemon site.payload
        site.installation.bindingEpoch))
      fun r w => ∀ row, r = .ok row → row.terminal = true → Terminal site w := by
    refine rg_atomic stable_true (fun r w w' h hrely hinv row hr ht =>
      stable_terminal' w w' (h row hr ht) hrely hinv) fun w o _ hinv _ => ?_
    cases herr : o.error with
    | some err => exact ⟨.refl w, hinv, fun row hr => by cases hr⟩
    | none =>
      dsimp only
      cases haccept : acceptTask site.taskId site.payloadHash .upgradeDaemon site.payload
          site.installation.bindingEpoch w.journal with
      | error err => exact ⟨.refl w, hinv, fun row hr => by cases hr⟩
      | ok r =>
        obtain ⟨row, j⟩ := r
        obtain ⟨hprogress, hget⟩ := acceptTask_progress haccept
        refine ⟨hprogress.helperRely, hinv.progress hprogress, fun row' hr ht => ?_⟩
        obtain rfl := Except.ok.inj hr
        exact (terminal_iff hget).2 ht
  unfold execute
  refine rg_bind daemonRely_refl haccept fun r => ?_
  cases r with
  | error err => exact serves_done _
  | ok journal =>
  refine rg_ite (fun hterminal => ?_) fun _ => ?_
  · exact (serves_reportResult journal).mono (fun _ _ h => h journal rfl hterminal) fun _ _ _ h => h
  · refine rg_bind daemonRely_refl (serves_active.mono (fun _ _ _ => trivial) fun _ _ _ h => h)
      fun r => ?_
    cases r with
    | error err => exact serves_done _
    | ok running =>
    cases running with
    | true => exact serves_done _
    | false =>
    refine Rg.mono (P := Unless site fun p files _ => Idle old p files) ?_ (fun _ _ h => h rfl)
      fun _ _ _ h => h
    refine rg_bind daemonRely_refl (rg_transition_running progress_helperRely lasting_unless none)
      fun r => ?_
    cases r with
    | error err => exact serves_done _
    | ok _ =>
    refine rg_bind daemonRely_refl (serves_beginUpgrade exe) fun r => ?_
    cases r with
    | none => exact serves_done _
    | some err =>
      exact (serves_storeFailure exe err).mono (fun _ _ h => h err rfl) fun _ _ _ h => h

theorem serves_serve (exe : String) (jobs : List Job) :
    Serves site old (fun _ => True) (serve site exe jobs) fun _ _ => True := by
  induction jobs with
  | nil => exact serves_done _
  | cons job jobs ih =>
    cases job with
    | execute => exact rg_bind daemonRely_refl (serves_execute exe) fun _ => ih
    | flushResults => exact rg_bind daemonRely_refl serves_flushResults fun _ => ih

/-- The service is safe whenever it starts. -/
theorem serves_service (jobs : List Job) :
    Serves site old (fun _ => True) (service site jobs) fun _ _ => True := by
  unfold service
  refine rg_bind daemonRely_refl serves_recoverBeforeStart fun r => ?_
  cases r with
  | error err => exact serves_done _
  | ok _ =>
  refine rg_bind daemonRely_refl (rg_quiet progress_helperRely lasting_true fun _ _ => rfl)
    fun r => ?_
  cases r with
  | error err => exact serves_done _
  | ok exe =>
  refine rg_bind daemonRely_refl (serves_confirmRecoveryReady exe) fun r => ?_
  cases r with
  | error err => exact serves_done _
  | ok _ => exact serves_serve exe jobs

end Service

end Bifurcation.Daemon.Updater
