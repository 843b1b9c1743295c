import Bifurcation.Daemon.Upgrade

/-!
# What the steps of an upgrade keep

The invariant of the plan file, the journal and the installed binary, and what the two processes of
an upgrade promise each other.

While the task has no result, a running helper owns the plan and the files: the service touches
them only while no helper runs. Once the task has a result, nobody replaces the installed binary.
-/

namespace Bifurcation.Daemon.Updater

open Thread

section Spec

variable (site : Site)

/-! ## Results -/

/-- The status and the result of the task. -/
def outcome (w : World) : Option (JournalStatus × Option Bytes) :=
  (w.journal.get? site.taskId).map fun row => (row.status, row.result)

/-- The task has a result. -/
def Terminal (w : World) : Prop :=
  ∃ status result, outcome site w = some (status, result) ∧
    (status = .succeeded ∨ status = .failed)

variable (old : String)

/-- The digest of the artifact. -/
def newDigest : String := site.sha256.toLower

/-- A result tells the truth about the installed binary. -/
structure Truthful (w : World) : Prop where
  succeeded : ∀ result, outcome site w = some (.succeeded, result) →
    w.files .installedBinary = some (newDigest site) ∧ w.healthy = some (newDigest site)
  failed : ∀ result report, outcome site w = some (.failed, result) →
    site.codec.unmarshal (result.getD []) = some report →
      report.rollback = .succeeded ∨ report.rollback = .notNeeded →
        w.files .installedBinary = some old

/-! ## The invariant -/

/-- The plan of this task's hand-off, in whatever phase. -/
structure Handed (plan : Plan) : Prop where
  taskId : plan.taskId = site.taskId
  old : plan.oldSha256 = old
  new : plan.newSha256 = newDigest site

/-- What the plan file says about the files while the task has no result. -/
inductive Sound (w : World) : Prop
  | idle (hplan : ∀ plan, w.plan = some plan → plan.phase = .completed)
      (hinstalled : w.files .installedBinary = some old) (hhelper : w.helperUnit = false)
  | ready {plan : Plan} (hplan : w.plan = some plan) (hphase : plan.phase = .updaterReady)
      (hhanded : Handed site old plan) (hinstalled : w.files .installedBinary = some old)
      (hbackup : w.files .backup = some old)
  | switching {plan : Plan} (hplan : w.plan = some plan)
      (hphase : plan.phase = .switching ∨ plan.phase = .starting ∨ plan.phase = .rollingBack)
      (hhanded : Handed site old plan) (hbackup : w.files .backup = some old)
  | healthy {plan : Plan} (hplan : w.plan = some plan) (hphase : plan.phase = .localHealthy)
      (hhanded : Handed site old plan)
      (hinstalled : w.files .installedBinary = some (newDigest site))
      (hhealthy : w.healthy = some (newDigest site))
  | restored {plan : Plan} (hplan : w.plan = some plan)
      (hphase : plan.phase = .restoredPendingHealth) (hhanded : Handed site old plan)
      (hinstalled : w.files .installedBinary = some old) (hbackup : w.files .backup = some old)
      (hhelper : w.helperUnit = false)

structure Inv (w : World) : Prop where
  truthful : Truthful site old w
  sound : ¬ Terminal site w → Sound site old w
  /-- Plans of other tasks are completed. -/
  task : ∀ plan, w.plan = some plan → plan.phase = .completed ∨ plan.taskId = site.taskId

/-! ## What the processes promise -/

/-- Nothing but the journal changes. -/
structure SameMachine (w w' : World) : Prop where
  plan : w'.plan = w.plan
  files : w'.files = w.files
  healthy : w'.healthy = w.healthy
  replaced : w'.replaced = w.replaced
  helperUnit : w'.helperUnit = w.helperUnit

/-- The result and the binary it is about stay. -/
structure Kept (w w' : World) : Prop where
  outcome : outcome site w' = outcome site w
  installed : w'.files .installedBinary = w.files .installedBinary
  healthy : w'.healthy = w.healthy
  replaced : w'.replaced = w.replaced

/-- What the service does beside a running helper. -/
structure HelperRely (w w' : World) : Prop where
  unit : w.helperUnit = true → w'.helperUnit = true
  running : w.helperUnit = true → ¬ Terminal site w → ¬ Terminal site w' ∧ SameMachine w w'
  kept : Terminal site w → Kept site w w'

/-- What a helper does beside the service. A plan that says `local_healthy` stays until the task
has a result. -/
structure DaemonRely (w w' : World) : Prop where
  absent : w.helperUnit = false → w' = w
  kept : Terminal site w → Kept site w w'
  healthy : ∀ plan, w.plan = some plan → plan.phase = .localHealthy → ¬ Terminal site w' →
    w'.plan = w.plan ∧ w'.files .installedBinary = w.files .installedBinary ∧
      w'.healthy = w.healthy

/-- What a step of the helper does. -/
structure HelperStep (w w' : World) : Prop where
  unit : w'.helperUnit = w.helperUnit
  kept : Terminal site w → Kept site w w'
  healthy : ∀ plan, w.plan = some plan → plan.phase = .localHealthy → ¬ Terminal site w' →
    w'.plan = w.plan ∧ w'.files .installedBinary = w.files .installedBinary ∧
      w'.healthy = w.healthy

/-- The steps of the service that are considered. The command that starts the helper reports no
failure after it did, and the recovery does not replace the binary while the plan says
`local_healthy`. -/
structure Fair (answer : Answer) (w w' : World) : Prop where
  started : w.helperUnit = false → w'.helperUnit = true → answer.error = none
  fresh : ∀ plan, w.plan = some plan → plan.phase = .localHealthy → w'.replaced = w.replaced

/-- Safe steps of the helper from `P`, ending in `Q`. -/
abbrev Helps {α : Type} (P : World → Prop) (x : Run α) (Q : α → World → Prop) : Prop :=
  Rg (HelperRely site) (HelperStep site) (Inv site old) (fun _ _ _ => True) P x Q

/-- Safe steps of the service from `P`, ending in `Q`. -/
abbrev Serves {α : Type} (P : World → Prop) (x : Run α) (Q : α → World → Prop) : Prop :=
  Rg (DaemonRely site) (HelperRely site) (Inv site old) Fair P x Q

variable {site old} {w w' w'' : World}

theorem terminal_iff {row : JournalRow} (h : w.journal.get? site.taskId = some row) :
    Terminal site w ↔ row.terminal = true := by
  simp [Terminal, outcome, h, JournalRow.terminal]

theorem Kept.refl (w : World) : Kept site w w := ⟨rfl, rfl, rfl, rfl⟩

theorem Kept.trans (h : Kept site w w') (h' : Kept site w' w'') : Kept site w w'' :=
  ⟨h'.outcome.trans h.outcome, h'.installed.trans h.installed, h'.healthy.trans h.healthy,
    h'.replaced.trans h.replaced⟩

theorem Kept.terminal (h : Kept site w w') (hterminal : Terminal site w) : Terminal site w' := by
  obtain ⟨status, result, heq, hstatus⟩ := hterminal
  exact ⟨status, result, h.outcome.trans heq, hstatus⟩

theorem SameMachine.refl (w : World) : SameMachine w w := ⟨rfl, rfl, rfl, rfl, rfl⟩

theorem SameMachine.trans (h : SameMachine w w') (h' : SameMachine w' w'') : SameMachine w w'' :=
  ⟨h'.plan.trans h.plan, h'.files.trans h.files, h'.healthy.trans h.healthy,
    h'.replaced.trans h.replaced, h'.helperUnit.trans h.helperUnit⟩

theorem HelperRely.refl (w : World) : HelperRely site w w :=
  ⟨fun h => h, fun _ h => ⟨h, .refl w⟩, fun _ => .refl w⟩

theorem HelperRely.trans (h : HelperRely site w w') (h' : HelperRely site w' w'') :
    HelperRely site w w'' := by
  refine ⟨fun hunit => h'.unit (h.unit hunit), fun hunit hrunning => ?_, fun hterminal => ?_⟩
  · obtain ⟨hrunning', hsame⟩ := h.running hunit hrunning
    obtain ⟨hrunning'', hsame'⟩ := h'.running (h.unit hunit) hrunning'
    exact ⟨hrunning'', hsame.trans hsame'⟩
  · have hkept := h.kept hterminal
    exact hkept.trans (h'.kept (hkept.terminal hterminal))

theorem DaemonRely.refl (w : World) : DaemonRely site w w :=
  ⟨fun _ => rfl, fun _ => .refl w, fun _ _ _ _ => ⟨rfl, rfl, rfl⟩⟩

theorem DaemonRely.trans (h : DaemonRely site w w') (h' : DaemonRely site w' w'') :
    DaemonRely site w w'' := by
  refine ⟨fun hunit => ?_, fun hterminal => ?_, fun plan hplan hphase hrunning => ?_⟩
  · have heq := h.absent hunit
    rw [heq] at h'
    exact h'.absent hunit
  · have hkept := h.kept hterminal
    exact hkept.trans (h'.kept (hkept.terminal hterminal))
  · have hrunning' : ¬ Terminal site w' := fun ht => hrunning ((h'.kept ht).terminal ht)
    obtain ⟨hplan', hfiles, hhealthy⟩ := h.healthy plan hplan hphase hrunning'
    obtain ⟨hplan'', hfiles', hhealthy'⟩ := h'.healthy plan (hplan'.trans hplan) hphase hrunning
    exact ⟨hplan''.trans hplan', hfiles'.trans hfiles, hhealthy'.trans hhealthy⟩

/-! ## Changes of the journal -/

/-- A step that changes nothing but the journal, and no result in it. -/
structure Progress (site : Site) (w w' : World) : Prop where
  same : SameMachine w w'
  kept : Terminal site w → outcome site w' = outcome site w
  running : ¬ Terminal site w → ¬ Terminal site w'

theorem Progress.refl (w : World) : Progress site w w := ⟨.refl w, fun _ => rfl, fun h => h⟩

theorem Sound.congr (h : Sound site old w) (hsame : SameMachine w w') : Sound site old w' := by
  have hplan := hsame.plan
  have hfiles := hsame.files
  cases h with
  | idle h₁ h₂ h₃ =>
    exact .idle (fun plan hp => h₁ plan (hplan ▸ hp)) (hfiles ▸ h₂) (hsame.helperUnit ▸ h₃)
  | ready h₁ h₂ h₃ h₄ h₅ => exact .ready (hplan ▸ h₁) h₂ h₃ (hfiles ▸ h₄) (hfiles ▸ h₅)
  | switching h₁ h₂ h₃ h₄ => exact .switching (hplan ▸ h₁) h₂ h₃ (hfiles ▸ h₄)
  | healthy h₁ h₂ h₃ h₄ h₅ =>
    exact .healthy (hplan ▸ h₁) h₂ h₃ (hfiles ▸ h₄) (hsame.healthy ▸ h₅)
  | restored h₁ h₂ h₃ h₄ h₅ h₆ =>
    exact .restored (hplan ▸ h₁) h₂ h₃ (hfiles ▸ h₄) (hfiles ▸ h₅) (hsame.helperUnit ▸ h₆)

theorem Truthful.congr (h : Truthful site old w) (hout : outcome site w' = outcome site w)
    (hfile : w'.files .installedBinary = w.files .installedBinary)
    (hhealthy : w'.healthy = w.healthy) : Truthful site old w' := by
  constructor
  · intro result hresult
    rw [hout] at hresult
    rw [hfile, hhealthy]
    exact h.succeeded result hresult
  · intro result report hresult
    rw [hout] at hresult
    rw [hfile]
    exact h.failed result report hresult

/-- A world whose task has no result tells no lie. -/
theorem Truthful.of_running (h : ¬ Terminal site w) : Truthful site old w :=
  ⟨fun result heq => absurd ⟨_, result, heq, .inl rfl⟩ h,
    fun result _ heq => absurd ⟨_, result, heq, .inr rfl⟩ h⟩

theorem Inv.progress (h : Inv site old w) (hp : Progress site w w') : Inv site old w' := by
  by_cases hterminal : Terminal site w
  · have hout := hp.kept hterminal
    refine ⟨h.truthful.congr hout (by rw [hp.same.files]) hp.same.healthy, fun hrunning => ?_,
      hp.same.plan ▸ h.task⟩
    obtain ⟨status, result, heq, hstatus⟩ := hterminal
    exact absurd ⟨status, result, hout.trans heq, hstatus⟩ hrunning
  · have hrunning := hp.running hterminal
    exact ⟨.of_running hrunning, fun _ => (h.sound hterminal).congr hp.same,
      hp.same.plan ▸ h.task⟩

theorem Progress.kept' (h : Progress site w w') (hterminal : Terminal site w) : Kept site w w' :=
  ⟨h.kept hterminal, by rw [h.same.files], h.same.healthy, h.same.replaced⟩

theorem Progress.helperStep (h : Progress site w w') : HelperStep site w w' :=
  ⟨h.same.helperUnit, h.kept', fun _ _ _ _ => ⟨h.same.plan, by rw [h.same.files], h.same.healthy⟩⟩

theorem Progress.helperRely (h : Progress site w w') : HelperRely site w w' :=
  ⟨fun hunit => h.same.helperUnit.trans hunit, fun _ hrunning => ⟨h.running hrunning, h.same⟩,
    h.kept'⟩

/-! ## Assertions -/

/-- What a helper knows of a task without a result: the plan and the files are its own. -/
def Owns (site : Site) (A : Option Plan → (File → Option String) → Option String → Prop)
    (w : World) : Prop :=
  w.helperUnit = true ∧ ¬ Terminal site w ∧ A w.plan w.files w.healthy

/-- A helper after the task has a result. -/
def Reported (site : Site) (w : World) : Prop := w.helperUnit = true ∧ Terminal site w

/-- What the service knows of a task without a result: no helper runs. -/
def Alone (site : Site) (A : Option Plan → (File → Option String) → Option String → Prop)
    (w : World) : Prop :=
  ¬ Terminal site w ∧ w.helperUnit = false ∧ A w.plan w.files w.healthy

/-- The same, unless the task has a result by now. -/
def Unless (site : Site) (A : Option Plan → (File → Option String) → Option String → Prop)
    (w : World) : Prop :=
  Terminal site w ∨ Alone site A w

/-- An assertion that neither others nor progress of the journal make false. -/
structure Lasting (R : World → World → Prop) (site : Site) (old : String) (P : World → Prop) :
    Prop where
  stable : Stable R (Inv site old) P
  progress : ∀ w w', P w → Progress site w w' → P w'

variable {A : Option Plan → (File → Option String) → Option String → Prop}

theorem lasting_true {R : World → World → Prop} : Lasting R site old fun _ => True :=
  ⟨fun _ _ _ _ _ => trivial, fun _ _ _ _ => trivial⟩

theorem stable_true {R : World → World → Prop} :
    Stable R (Inv site old) fun _ => True := fun _ _ _ _ _ => trivial

theorem lasting_owns : Lasting (HelperRely site) site old (Owns site A) := by
  constructor
  · intro w w' h hrely _
    obtain ⟨hunit, hrunning, hA⟩ := h
    obtain ⟨hrunning', hsame⟩ := hrely.running hunit hrunning
    refine ⟨hrely.unit hunit, hrunning', ?_⟩
    rw [hsame.plan, hsame.files, hsame.healthy]
    exact hA
  · intro w w' h hprogress
    obtain ⟨hunit, hrunning, hA⟩ := h
    refine ⟨hprogress.same.helperUnit.trans hunit, hprogress.running hrunning, ?_⟩
    rw [hprogress.same.plan, hprogress.same.files, hprogress.same.healthy]
    exact hA

theorem lasting_reported : Lasting (HelperRely site) site old (Reported site) :=
  ⟨fun _ _ h hrely _ => ⟨hrely.unit h.1, (hrely.kept h.2).terminal h.2⟩,
    fun _ _ h hprogress =>
      ⟨hprogress.same.helperUnit.trans h.1, (hprogress.kept' h.2).terminal h.2⟩⟩

theorem lasting_alone : Lasting (DaemonRely site) site old (Alone site A) := by
  constructor
  · intro w w' h hrely _
    rw [hrely.absent h.2.1]
    exact h
  · intro w w' h hprogress
    obtain ⟨hrunning, hunit, hA⟩ := h
    refine ⟨hprogress.running hrunning, hprogress.same.helperUnit.trans hunit, ?_⟩
    rw [hprogress.same.plan, hprogress.same.files, hprogress.same.healthy]
    exact hA

theorem lasting_unless : Lasting (DaemonRely site) site old (Unless site A) := by
  constructor
  · intro w w' h hrely hinv
    rcases h with hterminal | halone
    · exact .inl ((hrely.kept hterminal).terminal hterminal)
    · exact .inr (lasting_alone.stable w w' halone hrely hinv)
  · intro w w' h hprogress
    rcases h with hterminal | halone
    · exact .inl ((hprogress.kept' hterminal).terminal hterminal)
    · exact .inr ((lasting_alone : Lasting _ site old (Alone site A)).progress w w' halone hprogress)

/-! ## Operations -/

section Operations

variable {R G : World → World → Prop} {F : Answer → World → World → Prop} {α : Type}
  {P : World → Prop} {Q : Result α → World → Prop}

/-- An operation that changes nothing. -/
theorem rg_look {f : Answer → World → Result α × World} (hG : ∀ w, G w w)
    (hP : Stable R (Inv site old) P) (hQ : ∀ r, Stable R (Inv site old) (Q r))
    (hf : ∀ o w, (f o w).2 = w) (herror : ∀ w err, P w → Inv site old w → Q (.error err) w)
    (h : ∀ w o, P w → Inv site old w → Q (f o w).1 w) :
    Rg R G (Inv site old) F P (attempt f) Q := by
  refine rg_atomic hP hQ fun w o hw hinv _ => ?_
  cases herr : o.error with
  | some err => exact ⟨hG w, hinv, herror w err hw hinv⟩
  | none =>
    simp only [hf]
    exact ⟨hG w, hinv, h w o hw hinv⟩

/-- An operation on the journal that changes no result. -/
theorem rg_progress {f : Answer → World → Result α × World}
    (hG : ∀ w w', Progress site w w' → G w w') (hP : Lasting R site old P)
    (hf : ∀ o w, Progress site w (f o w).2) :
    Rg R G (Inv site old) F P (attempt f) fun _ => P := by
  refine rg_atomic hP.stable (fun _ => hP.stable) fun w o hw hinv _ => ?_
  cases herr : o.error with
  | some err => exact ⟨hG w w (.refl w), hinv, hw⟩
  | none =>
    have hprogress := hf o w
    exact ⟨hG w _ hprogress, hinv.progress hprogress, hP.progress w _ hw hprogress⟩

/-- A transaction that leaves every result. -/
theorem progress_of_journal {j : Journal}
    (h : ∀ row, w.journal.get? site.taskId = some row →
      ∃ row', j.get? site.taskId = some row' ∧
        (row.terminal = true → row'.status = row.status ∧ row'.result = row.result) ∧
        (row.terminal = false → row'.terminal = false))
    (hnone : w.journal.get? site.taskId = none → ∀ row', j.get? site.taskId = some row' →
      row'.terminal = false) : Progress site w { w with journal := j } := by
  have hiff : ∀ {status : JournalStatus} {row : JournalRow}, row.status = status →
      ((status = .succeeded ∨ status = .failed) ↔ row.terminal = true) := by
    intro status row hrow
    simp [JournalRow.terminal, hrow]
  refine ⟨⟨rfl, rfl, rfl, rfl, rfl⟩, fun hterminal => ?_, fun hrunning hterminal => hrunning ?_⟩
  · obtain ⟨status, result, heq, hstatus⟩ := hterminal
    obtain ⟨row, hrow, hpair⟩ := Option.map_eq_some_iff.1 heq
    obtain ⟨rfl, rfl⟩ := Prod.mk.inj hpair
    obtain ⟨row', hrow', hsame, -⟩ := h row hrow
    obtain ⟨hs, hr⟩ := hsame ((hiff rfl).1 hstatus)
    simp only [outcome, hrow, hrow', Option.map_some, hs, hr]
  · obtain ⟨status, result, heq, hstatus⟩ := hterminal
    obtain ⟨row', hrow', hpair⟩ := Option.map_eq_some_iff.1 heq
    obtain ⟨rfl, rfl⟩ := Prod.mk.inj hpair
    have hterm := (hiff rfl).1 hstatus
    cases hrow : w.journal.get? site.taskId with
    | none =>
      have hfalse := hnone hrow row' hrow'
      rw [hterm] at hfalse
      cases hfalse
    | some row =>
      obtain ⟨row'', hrow'', hsame, hkeep⟩ := h row hrow
      obtain rfl := Option.some.inj (hrow'.symm.trans hrow'')
      cases hterminal : row.terminal with
      | false =>
        have hfalse := hkeep hterminal
        rw [hterm] at hfalse
        cases hfalse
      | true => exact ⟨row.status, row.result, by rw [outcome, hrow]; rfl, (hiff rfl).2 hterminal⟩

variable {R G : World → World → Prop} {F : Answer → World → World → Prop} {P : World → Prop}

/-- A transition to `running` changes no result. -/
theorem rg_transition_running (hG : ∀ w w', Progress site w w' → G w w')
    (hP : Lasting R site old P) (result : Option Bytes) :
    Rg R G (Inv site old) F P (transact (transition site.taskId .running result)) fun _ => P := by
  refine rg_progress hG hP fun o w => ?_
  cases htransition : transition site.taskId .running result w.journal with
  | error err => exact .refl w
  | ok r =>
    obtain ⟨row, j⟩ := r
    obtain ⟨before, hget, hcases⟩ := transition_eq_ok htransition
    refine progress_of_journal (fun row' hrow' => ?_) (fun hnone => ?_)
    · obtain rfl := Option.some.inj (hget.symm.trans hrow')
      rcases hcases with ⟨hterminal, -, rfl⟩ | ⟨hrunning, -, rfl, rfl⟩
      · exact ⟨before, hget, fun _ => ⟨rfl, rfl⟩, fun h => h⟩
      · refine ⟨_, Table.get?_set_self _ _ _, fun hterminal => ?_, fun _ => rfl⟩
        rw [hrunning] at hterminal
        cases hterminal
    · rw [hget] at hnone
      cases hnone

/-- Recording an accepted task changes no result. -/
theorem acceptTask_progress {kind : TaskKind} {payload : Bytes} {epoch : Int} {row : JournalRow}
    {j : Journal}
    (h : acceptTask site.taskId site.payloadHash kind payload epoch w.journal = .ok (row, j)) :
    Progress site w { w with journal := j } ∧ j.get? site.taskId = some row := by
  rcases acceptTask_eq_ok h with ⟨hget, rfl⟩ | ⟨hnone, -, rfl⟩
  · exact ⟨.refl w, hget⟩
  · refine ⟨progress_of_journal (fun row' hrow' => ?_) (fun _ row' hrow' => ?_),
      Table.get?_set_self _ _ _⟩
    · rw [hnone] at hrow'
      cases hrow'
    · rw [Table.get?_set_self] at hrow'
      obtain rfl := Option.some.inj hrow'
      rcases acceptTask_eq_ok h with ⟨hget, -⟩ | ⟨-, rfl, -⟩
      · rw [hnone] at hget
        cases hget
      · rfl

theorem rg_acknowledge (hG : ∀ w w', Progress site w w' → G w w') (hP : Lasting R site old P)
    (seq : Int) :
    Rg R G (Inv site old) F P (storeAcknowledge site.taskId seq) fun _ => P := by
  refine rg_progress hG hP fun o w => ?_
  cases hack : acknowledgeTask site.taskId seq w.journal with
  | error err => exact .refl w
  | ok j =>
    obtain ⟨row, hget, -, hterminal, rfl⟩ := acknowledgeTask_eq_ok hack
    refine progress_of_journal (fun row' hrow' => ?_) (fun hnone => ?_)
    · obtain rfl := Option.some.inj (hget.symm.trans hrow')
      refine ⟨_, Table.get?_set_self _ _ _, fun _ => ⟨rfl, rfl⟩, fun hrunning => ?_⟩
      rw [hterminal] at hrunning
      cases hrunning
    · rw [hget] at hnone
      cases hnone

/-- What holds before an operation that changes nothing holds after it. -/
theorem rg_quiet {α : Type} {f : Answer → World → Result α × World}
    (hG : ∀ w w', Progress site w w' → G w w') (hP : Lasting R site old P)
    (hf : ∀ o w, (f o w).2 = w) :
    Rg R G (Inv site old) F P (attempt f) fun _ => P :=
  rg_progress hG hP fun o w => (hf o w).symm ▸ .refl w

/-! ## Progress reports -/

variable (hrefl : ∀ w, R w w) (hG : ∀ w w', Progress site w w' → G w w')

include hrefl hG

theorem rg_send (hP : Lasting R site old P) (task : JournalRow) :
    Rg R G (Inv site old) F P (send site task) fun _ => P := by
  have hdone : ∀ r : Result Bool, Rg R G (Inv site old) F P (pure r) fun _ => P :=
    fun _ => rg_pure hP.stable fun _ _ h => h
  unfold send
  cases resultReport site.codec site.installation task with
  | none => exact hdone _
  | some report =>
    refine rg_bind hrefl (rg_quiet hG hP fun _ _ => rfl) fun r => ?_
    cases r with
    | error err => exact hdone _
    | ok _ =>
      refine rg_bind hrefl (rg_quiet hG hP fun _ _ => rfl) fun r => ?_
      cases r with
      | error err => exact hdone _
      | ok response =>
        refine rg_ite (fun _ => hdone _) fun _ => ?_
        refine rg_ite (fun _ => hdone _) fun _ => ?_
        refine rg_ite (fun _ => hdone _) fun _ => ?_
        refine rg_bind hrefl (rg_acknowledge hG hP _) fun r => ?_
        cases r with
        | error err => exact hdone _
        | ok _ => exact hdone _

/-- A report of progress changes no result. -/
theorem rg_persist_running (hP : Lasting R site old P) (phase errorCode message version : String) :
    Rg R G (Inv site old) F P (persist site phase false false errorCode message version)
      fun _ => P := by
  have hdone : ∀ r : Result JournalRow, Rg R G (Inv site old) F P (pure r) fun _ => P :=
    fun _ => rg_pure hP.stable fun _ _ h => h
  unfold persist
  refine rg_bind hrefl (rg_quiet hG hP fun _ _ => rfl) fun r => ?_
  cases r with
  | error err => exact hdone _
  | ok task =>
    refine rg_ite (fun _ => hdone _) fun _ => ?_
    refine rg_bind hrefl (rg_quiet hG hP fun _ _ => rfl) fun r => ?_
    cases r with
    | error err => exact hdone _
    | ok _ =>
      refine rg_ite (fun _ => hdone _) fun _ => ?_
      cases site.codec.marshal (maintenanceReport site task phase false false errorCode message
        version) with
      | none => exact hdone _
      | some encoded => exact rg_transition_running hG hP _

theorem rg_publish (hP : Lasting R site old P) (phase version message : String) :
    Rg R G (Inv site old) F P (publish site phase version message) fun _ => P := by
  unfold publish
  refine rg_bind hrefl (rg_persist_running hrefl hG hP _ _ _ _) fun r => ?_
  cases r with
  | error err => exact rg_pure hP.stable fun _ _ h => h
  | ok task => exact rg_send hrefl hG hP task

theorem rg_awaitAcknowledged (hP : Lasting R site old P) (tries : ℕ) (task : JournalRow) :
    Rg R G (Inv site old) F P (awaitAcknowledged site tries task) fun _ => P := by
  have hdone : ∀ r : Result Unit, Rg R G (Inv site old) F P (pure r) fun _ => P :=
    fun _ => rg_pure hP.stable fun _ _ h => h
  induction tries generalizing task with
  | zero => exact hdone _
  | succ tries ih =>
    refine rg_ite (fun _ => hdone _) fun _ => ?_
    refine rg_bind hrefl (rg_send hrefl hG hP task) fun r => ?_
    have hretry : ∀ k, (∀ err, k (.error err) = (pure (.error err) : Run (Result Unit))) →
        (∀ task, k (.ok task) = awaitAcknowledged site tries task) →
        Rg R G (Inv site old) F P (storeTask site.taskId >>= k) fun _ => P := by
      intro k hfail hnext
      refine rg_bind hrefl (rg_quiet hG hP fun _ _ => rfl) fun r => ?_
      cases r with
      | error err =>
        rw [hfail]
        exact hdone _
      | ok task =>
        rw [hnext]
        exact ih task
    cases r with
    | error err => exact hretry _ (fun _ => rfl) fun _ => rfl
    | ok acknowledged =>
      cases acknowledged with
      | true => exact hdone _
      | false => exact hretry _ (fun _ => rfl) fun _ => rfl

/-! ## Results -/

omit hrefl hG in
/-- A transition to a result stores it, unless there is one. -/
theorem transition_decides {status : JournalStatus} {encoded : Bytes} {row : JournalRow}
    {j : Journal}
    (h : transition site.taskId status (some encoded) w.journal = .ok (row, j)) :
    (Terminal site w ∧ j = w.journal) ∨
      (¬ Terminal site w ∧
        outcome site { w with journal := j } = some (status, some encoded)) := by
  obtain ⟨before, hget, hcases⟩ := transition_eq_ok h
  rcases hcases with ⟨hterminal, -, rfl⟩ | ⟨hrunning, -, rfl, rfl⟩
  · refine .inl ⟨⟨before.status, before.result, by rw [outcome, hget]; rfl, ?_⟩, rfl⟩
    simpa [JournalRow.terminal] using hterminal
  · refine .inr ⟨fun hterminal => ?_, ?_⟩
    · obtain ⟨s, r, heq, hs⟩ := hterminal
      rw [outcome, hget] at heq
      obtain ⟨rfl, rfl⟩ := Prod.mk.inj (Option.some.inj heq)
      have hterm : before.terminal = true := by simpa [JournalRow.terminal] using hs
      rw [hrunning] at hterm
      cases hterm
    · simp only [outcome, Table.get?_set_self, Option.map_some]
      rfl

omit hrefl hG in
/-- A stored result is the report that was encoded. -/
theorem truthful_of_report {status : JournalStatus} {encoded : Bytes}
    {report : ReportTaskRequest} (hencode : site.codec.marshal report = some encoded)
    (houtcome : outcome site w = some (status, some encoded))
    (hsucceeded : status = .succeeded → w.files .installedBinary = some (newDigest site) ∧
      w.healthy = some (newDigest site))
    (hfailed : status = .failed → report.rollback = .succeeded ∨ report.rollback = .notNeeded →
      w.files .installedBinary = some old) : Truthful site old w := by
  constructor
  · intro result heq
    obtain ⟨hs, -⟩ := Prod.mk.inj (Option.some.inj (houtcome.symm.trans heq))
    exact hsucceeded hs
  · intro result report' heq hdecode hrollback
    obtain ⟨hs, hr⟩ := Prod.mk.inj (Option.some.inj (houtcome.symm.trans heq))
    rw [← hr, Option.getD_some, site.codec.unmarshal_marshal _ _ hencode] at hdecode
    obtain rfl := Option.some.inj hdecode
    exact hfailed hs hrollback

omit hrefl in
/-- Storing a result: what must hold when it is stored, and what holds once there is one. -/
theorem rg_transition_result (hP : Stable R (Inv site old) P) {T : World → Prop}
    (hT : Stable R (Inv site old) T) {status : JournalStatus} {encoded : Bytes}
    {report : ReportTaskRequest} (hstatus : status = .succeeded ∨ status = .failed)
    (hencode : site.codec.marshal report = some encoded)
    (hsucceeded : status = .succeeded → ∀ w, Inv site old w → P w → ¬ Terminal site w →
      w.files .installedBinary = some (newDigest site) ∧ w.healthy = some (newDigest site))
    (hfailed : status = .failed → report.rollback = .succeeded ∨ report.rollback = .notNeeded →
      ∀ w, Inv site old w → P w → ¬ Terminal site w → w.files .installedBinary = some old)
    (hstep : ∀ w w', Inv site old w → P w → ¬ Terminal site w → SameMachine w w' →
      Terminal site w' → G w w')
    (hend : ∀ w w', P w → SameMachine w w' → Terminal site w' → T w') :
    Rg R G (Inv site old) F P (transact (transition site.taskId status (some encoded)))
      fun r w => ∀ row, r = .ok row → T w := by
  refine rg_atomic hP (fun r w w' h hrely hinv row hr => hT w w' (h row hr) hrely hinv) ?_
  intro w o hw hinv _
  cases herr : o.error with
  | some err => exact ⟨hG w w (.refl w), hinv, fun row hr => by cases hr⟩
  | none =>
    dsimp only
    cases htransition : transition site.taskId status (some encoded) w.journal with
    | error err => exact ⟨hG w w (.refl w), hinv, fun row hr => by cases hr⟩
    | ok r =>
      obtain ⟨row, j⟩ := r
      rcases transition_decides htransition with ⟨hterminal, rfl⟩ | ⟨hrunning, houtcome⟩
      · exact ⟨hG w w (.refl w), hinv, fun _ _ => hend w w hw (.refl w) hterminal⟩
      · have hsame : SameMachine w { w with journal := j } := ⟨rfl, rfl, rfl, rfl, rfl⟩
        have hterminal : Terminal site { w with journal := j } := ⟨_, _, houtcome, hstatus⟩
        refine ⟨hstep w _ hinv hw hrunning hsame hterminal,
          ⟨?_, fun h => absurd hterminal h, hinv.task⟩,
          fun _ _ => hend w _ hw hsame hterminal⟩
        exact truthful_of_report hencode houtcome (fun hs => hsucceeded hs w hinv hw hrunning)
          fun hs hrollback => hfailed hs hrollback w hinv hw hrunning

/-- A terminal report of `persist`. -/
theorem rg_persist_result (hP : Lasting R site old P) {T : World → Prop}
    (hT : Stable R (Inv site old) T) (hterminal : Stable R (Inv site old) (Terminal site))
    {success : Bool} {phase errorCode message version : String}
    (hsucceeded : success = true → ∀ w, Inv site old w → P w → ¬ Terminal site w →
      w.files .installedBinary = some (newDigest site) ∧ w.healthy = some (newDigest site))
    (hfailed : success = false → errorCode ≠ "ROLLBACK_FAILED" →
      ∀ w, Inv site old w → P w → ¬ Terminal site w → w.files .installedBinary = some old)
    (hstep : ∀ w w', Inv site old w → P w → ¬ Terminal site w → SameMachine w w' →
      Terminal site w' → G w w')
    (hend : ∀ w w', P w → SameMachine w w' → Terminal site w' → T w') :
    Rg R G (Inv site old) F P (persist site phase true success errorCode message version)
      fun r w => ∀ row, r = .ok row → T w := by
  have hQ : ∀ r : Result JournalRow,
      Stable R (Inv site old) (fun w => ∀ row, r = .ok row → T w) :=
    fun r w w' h hrely hinv row hr => hT w w' (h row hr) hrely hinv
  have herror : ∀ err, Rg R G (Inv site old) F P (pure (.error err) : Run (Result JournalRow))
      fun r w => ∀ row, r = .ok row → T w :=
    fun err => rg_pure (hQ _) fun w _ _ row hr => by cases hr
  unfold persist
  have hread : Rg R G (Inv site old) F P (storeTask site.taskId) fun r w =>
      P w ∧ ∀ row, r = .ok row → row.terminal = true → Terminal site w := by
    refine rg_look (fun w => hG w w (.refl w)) hP.stable ?_ (fun _ _ => rfl) ?_ ?_
    · intro r w w' h hrely hinv
      exact ⟨hP.stable w w' h.1 hrely hinv, fun row hr ht =>
        hterminal w w' (h.2 row hr ht) hrely hinv⟩
    · exact fun w err hw _ => ⟨hw, fun row hr => by cases hr⟩
    · intro w o hw _
      refine ⟨hw, fun row hr ht => ?_⟩
      rw [found_eq_ok] at hr
      exact (terminal_iff hr).2 ht
  refine rg_bind hrefl hread fun r => ?_
  cases r with
  | error err => exact (herror err).mono (fun _ _ h => h.1) fun _ _ _ h => h
  | ok task =>
    refine rg_ite (fun ht => ?_) fun _ => ?_
    · exact rg_pure (hQ _) fun w _ h row hr => hend w w h.1 (.refl w) (h.2 task rfl ht)
    · refine Rg.mono (P := P) ?_ (fun _ _ h => h.1) fun _ _ _ h => h
      refine rg_bind hrefl (rg_quiet hG hP fun _ _ => rfl) fun r => ?_
      cases r with
      | error err => exact herror err
      | ok _ =>
        refine rg_ite (fun _ => herror _) fun _ => ?_
        cases hencode : site.codec.marshal (maintenanceReport site task phase true success
            errorCode message version) with
        | none => exact herror _
        | some encoded =>
          refine rg_transition_result hG hP.stable hT ?_ hencode ?_ ?_ hstep hend
          · cases success
            · exact .inr rfl
            · exact .inl rfl
          · intro hs
            cases success
            · cases hs
            · exact hsucceeded rfl
          · intro hs hrollback
            cases success
            · refine hfailed rfl fun herr => ?_
              simp [maintenanceReport, herr] at hrollback
            · cases hs

end Operations

end Spec

end Bifurcation.Daemon.Updater
