import Bifurcation.Daemon.UpgradeService

/-!
# Upgrade outcomes are truthful

Runs of a machine: the helper and the service take steps in any order, and either is cut off at
any point. In every fair run the record of the task tells the truth about the installed binary,
and nobody replaces the binary once there is a result.

Both halves of fairness are needed. If `systemd-run` reports failure although the helper runs, the
daemon stores a failure that needs no rollback while the helper goes on to switch the binary. And
`RecoverBeforeStart` reads the plan before it asks for the helper: a helper that stores
`local_healthy` and dies in between has its binary taken back.
-/

namespace Bifurcation.Daemon.Updater

open Thread

/-! ## Runs -/

def Machine.run (site : Site) (m : Machine) (events : List Event) : Machine :=
  events.foldl (Machine.step site) m

/-- Nothing runs, no upgrade is under way and the task has no result. -/
structure Machine.Start (site : Site) (old : String) (m : Machine) : Prop where
  running : ¬ Terminal site m.world
  plan : ∀ plan, m.world.plan = some plan → plan.phase = .completed
  installed : m.world.files .installedBinary = some old
  unit : m.world.helperUnit = false
  helper : m.helper = none
  daemon : m.daemon = none

/-- The step of the service is fair. -/
def Machine.Fair (site : Site) (m : Machine) : Event → Prop
  | .daemon answer tries =>
    Updater.Fair answer m.world (m.step site (.daemon answer tries)).world
  | _ => True

def Machine.FairRun (site : Site) : Machine → List Event → Prop
  | _, [] => True
  | m, event :: events => m.Fair site event ∧ FairRun site (m.step site event) events

/-! ## The invariant of a machine -/

/-- A helper that is safe from here on. -/
abbrev HelperSafe (site : Site) (old : String) (x : Run (Result Unit)) (w : World) : Prop :=
  Safe (HelperRely site) (HelperStep site) (Inv site old) (fun _ _ _ => True) (fun _ _ => True) x w

/-- A service that is safe from here on. -/
abbrev ServiceSafe (site : Site) (old : String) (x : Run Unit) (w : World) : Prop :=
  Safe (DaemonRely site) (HelperRely site) (Inv site old) Updater.Fair (fun _ _ => True) x w

structure Machine.Inv (site : Site) (old : String) (m : Machine) : Prop where
  world : Updater.Inv site old m.world
  unit : m.helper.isSome = m.world.helperUnit
  helper : ∀ x, m.helper = some x → HelperSafe site old x m.world
  daemon : ∀ x, m.daemon = some x → ServiceSafe site old x m.world

section Steps

variable {site : Site} {old : String} {w w' : World} {m : Machine}

theorem daemonRely_trans (w w' w'' : World) (h : DaemonRely site w w')
    (h' : DaemonRely site w' w'') : DaemonRely site w w'' := h.trans h'

theorem helperRely_trans (w w' w'' : World) (h : HelperRely site w w')
    (h' : HelperRely site w' w'') : HelperRely site w w'' := h.trans h'

/-- A running helper does what the service relies on. -/
theorem HelperStep.daemonRely (h : HelperStep site w w') (hunit : w.helperUnit = true) :
    DaemonRely site w w' := by
  refine ⟨fun hoff => ?_, h.kept, h.healthy⟩
  rw [hunit] at hoff
  cases hoff

/-- So does a helper that is cut off. -/
theorem daemonRely_withoutHelper (w : World) : DaemonRely site w w.withoutHelper := by
  refine ⟨fun hoff => ?_, fun _ => ⟨rfl, rfl, rfl, rfl⟩, fun _ _ _ _ => ⟨rfl, rfl, rfl⟩⟩
  rw [World.withoutHelper, ← hoff]

theorem Sound.withoutHelper (h : Sound site old w) : Sound site old w.withoutHelper := by
  cases h with
  | idle hplan hinstalled _ => exact .idle hplan hinstalled rfl
  | ready hplan hphase hhanded hinstalled hbackup =>
    exact .ready hplan hphase hhanded hinstalled hbackup
  | switching hplan hphase hhanded hbackup => exact .switching hplan hphase hhanded hbackup
  | healthy hplan hphase hhanded hinstalled hhealthy =>
    exact .healthy hplan hphase hhanded hinstalled hhealthy
  | restored hplan hphase hhanded hinstalled hbackup _ =>
    exact .restored hplan hphase hhanded hinstalled hbackup rfl

theorem Inv.withoutHelper (h : Updater.Inv site old w) : Updater.Inv site old w.withoutHelper :=
  ⟨h.truthful.congr rfl rfl rfl, fun hrunning => (h.sound hrunning).withoutHelper, h.task⟩

/-- The helper ends or is cut off. -/
theorem Machine.Inv.drop (h : m.Inv site old) :
    ({ m with world := m.world.withoutHelper, helper := none } : Machine).Inv site old where
  world := h.world.withoutHelper
  unit := rfl
  helper := fun x hx => by cases hx
  daemon := fun x hx => (h.daemon x hx).rely daemonRely_trans
    (daemonRely_withoutHelper _)

theorem Machine.Inv.helperStep (h : m.Inv site old) {act : Answer → World → World}
    {next : Answer → World → Run (Result Unit)} (hhelper : m.helper = some (.step act next))
    (answer : Answer) :
    ({ m with world := act answer m.world, helper := some (next answer m.world) } :
      Machine).Inv site old ∧ HelperStep site m.world (act answer m.world) := by
  have hunit : m.world.helperUnit = true := by
    rw [← h.unit, hhelper]
    rfl
  obtain ⟨hstep, hinv, hnext⟩ :=
    (h.helper _ hhelper).next helperRely_refl h.world (o := answer) trivial
  refine ⟨⟨hinv, ?_, fun x hx => ?_, fun x hx => ?_⟩, hstep⟩
  · rw [hstep.unit, hunit]
    rfl
  · obtain rfl := Option.some.inj hx
    exact hnext
  · exact (h.daemon x hx).rely daemonRely_trans (hstep.daemonRely hunit)

theorem Machine.Inv.daemonStep (h : m.Inv site old) {act : Answer → World → World}
    {next : Answer → World → Run Unit} (hdaemon : m.daemon = some (.step act next))
    {answer : Answer} {tries : ℕ} (hfair : m.Fair site (.daemon answer tries)) :
    (m.step site (.daemon answer tries)).Inv site old ∧
      HelperRely site m.world (m.step site (.daemon answer tries)).world := by
  have hworld : (m.step site (.daemon answer tries)).world = act answer m.world := by
    simp only [Machine.step, hdaemon]
  rw [Machine.Fair, hworld] at hfair
  obtain ⟨hrely, hinv, hnext⟩ := (h.daemon _ hdaemon).next daemonRely_refl h.world hfair
  simp only [Machine.step, hdaemon]
  refine ⟨⟨hinv, ?_, fun x hx => ?_, fun x hx => ?_⟩, hrely⟩
  · by_cases hunit : m.world.helperUnit = true
    · simp [hrely.unit hunit, hunit, h.unit]
    · have hunit : m.world.helperUnit = false := by simpa using hunit
      cases (act answer m.world).helperUnit <;> simp [hunit, h.unit]
  · dsimp only at hx
    by_cases hspawn : (act answer m.world).helperUnit = true ∧ m.world.helperUnit = false
    · rw [if_pos hspawn] at hx
      obtain rfl := Option.some.inj hx
      exact helps_runUpgrade tries _ hspawn.1 hinv
    · rw [if_neg hspawn] at hx
      exact (h.helper x hx).rely helperRely_trans hrely
  · obtain rfl := Option.some.inj hx
    exact hnext

/-- What an event does to a result. -/
theorem Machine.Inv.step (h : m.Inv site old) {event : Event} (hfair : m.Fair site event) :
    (m.step site event).Inv site old ∧
      (Terminal site m.world → Kept site m.world (m.step site event).world) := by
  cases event with
  | helper answer =>
    cases hhelper : m.helper with
    | none =>
      simp only [Machine.step, hhelper]
      exact ⟨h, fun _ => .refl _⟩
    | some x =>
      cases x with
      | done r =>
        simp only [Machine.step, hhelper]
        exact ⟨h.drop, (daemonRely_withoutHelper _).kept⟩
      | step act next =>
        simp only [Machine.step, hhelper]
        obtain ⟨hinv, hstep⟩ := h.helperStep hhelper answer
        exact ⟨hinv, hstep.kept⟩
  | helperStops => exact ⟨h.drop, (daemonRely_withoutHelper _).kept⟩
  | daemon answer tries =>
    cases hdaemon : m.daemon with
    | none =>
      simp only [Machine.step, hdaemon]
      exact ⟨h, fun _ => .refl _⟩
    | some x =>
      cases x with
      | done r =>
        simp only [Machine.step, hdaemon]
        exact ⟨⟨h.world, h.unit, h.helper, fun x hx => by cases hx⟩, fun _ => .refl _⟩
      | step act next =>
        obtain ⟨hinv, hrely⟩ := h.daemonStep hdaemon hfair
        exact ⟨hinv, hrely.kept⟩
  | daemonStops =>
    exact ⟨⟨h.world, h.unit, h.helper, fun x hx => by cases hx⟩, fun _ => .refl _⟩
  | daemonStarts jobs =>
    cases hdaemon : m.daemon with
    | some x =>
      simp only [Machine.step, hdaemon]
      exact ⟨h, fun _ => .refl _⟩
    | none =>
      simp only [Machine.step, hdaemon]
      refine ⟨⟨h.world, h.unit, h.helper, fun x hx => ?_⟩, fun _ => .refl _⟩
      obtain rfl := Option.some.inj hx
      exact serves_service jobs _ trivial h.world

theorem Machine.Inv.run (h : m.Inv site old) {events : List Event}
    (hfair : m.FairRun site events) :
    (m.run site events).Inv site old ∧
      (Terminal site m.world → Kept site m.world (m.run site events).world) := by
  induction events generalizing m with
  | nil => exact ⟨h, fun _ => .refl _⟩
  | cons event events ih =>
    obtain ⟨hstep, hkept⟩ := h.step hfair.1
    obtain ⟨hrun, hkept'⟩ := ih hstep hfair.2
    exact ⟨hrun, fun ht => (hkept ht).trans (hkept' ((hkept ht).terminal ht))⟩

theorem Machine.Start.inv (h : m.Start site old) : m.Inv site old where
  world := ⟨.of_running h.running, fun _ => .idle h.plan h.installed h.unit,
    fun plan hplan => .inl (h.plan plan hplan)⟩
  unit := by rw [h.helper, h.unit]; rfl
  helper := fun x hx => by rw [h.helper] at hx; cases hx
  daemon := fun x hx => by rw [h.daemon] at hx; cases hx

theorem Machine.fairRun_append {events later : List Event}
    (h : m.FairRun site (events ++ later)) :
    m.FairRun site events ∧ (m.run site events).FairRun site later := by
  induction events generalizing m with
  | nil => exact ⟨trivial, h⟩
  | cons event events ih =>
    obtain ⟨hevents, hlater⟩ := ih h.2
    exact ⟨⟨h.1, hevents⟩, hlater⟩

end Steps

/-- In every state of a fair run the record of the task is true; and once it is there, no later
step replaces the installed binary or changes the record. -/
theorem upgrade_truthful {site : Site} {old : String} {m : Machine} (hstart : m.Start site old)
    (events later : List Event) (hfair : m.FairRun site (events ++ later)) :
    Truthful site old (m.run site events).world ∧
      (Terminal site (m.run site events).world →
        Kept site (m.run site events).world (m.run site (events ++ later)).world) := by
  obtain ⟨hevents, hlater⟩ := Machine.fairRun_append hfair
  obtain ⟨hrun, -⟩ := hstart.inv.run hevents
  refine ⟨hrun.world.truthful, fun hterminal => ?_⟩
  have happend : m.run site (events ++ later) = (m.run site events).run site later :=
    List.foldl_append
  rw [happend]
  exact (hrun.run hlater).2 hterminal

/-! ## Unfair runs -/

/-- A codec for the runs below, in which one report is encoded. -/
def oneReportCodec (report : ReportTaskRequest) : ReportCodec where
  marshal r := if r = report then some [] else none
  unmarshal bytes := if bytes = [] then some report else none
  unmarshal_marshal := by
    intro r bytes h
    by_cases hr : r = report
    · simp only [hr, if_true, Option.some.injEq] at h
      rw [← h, hr]
      rfl
    · simp [hr] at h

/-- The report of the example task that ends it. -/
def exampleReport (state : ReportedState) (phase errorCode message version : String) :
    ReportTaskRequest where
  installation := some ⟨"installation", 1⟩
  taskId := "task"
  payloadSha256 := "payload"
  sequence := 2
  state
  phase
  progressPercent := none
  errorCode
  message
  rollback := .notNeeded
  actualStatus := some ⟨0, version, 0, "", 0, false, "", ""⟩
  diagnosticJson := []

def exampleSite (report : ReportTaskRequest) : Site where
  codec := oneReportCodec report
  installation := ⟨"installation", 1⟩
  taskId := "task"
  payloadHash := "payload"
  payload := []
  version := "new"
  sha256 := "new"
  versionOf digest := digest
  status version := ⟨0, version, 0, "", 0, false, "", ""⟩

def exampleMachine : Machine where
  world :=
    { journal := .empty
      plan := none
      files := fun f => if f = .installedBinary then some "old" else none
      helperUnit := false
      healthy := none
      replaced := 0 }
  helper := none
  daemon := none

theorem exampleMachine_start (report : ReportTaskRequest) :
    exampleMachine.Start (exampleSite report) "old" where
  running := by simp [Terminal, outcome, exampleMachine]
  plan := fun plan h => by cases h
  installed := rfl
  unit := rfl
  helper := rfl
  daemon := rfl

/-- Steps of the service and of the helper that succeed. -/
def daemonSteps (n : ℕ) : List Event := .replicate n (.daemon {} 1)

def helperSteps (n : ℕ) : List Event := .replicate n (.helper {})

/-- Steps that fail. -/
def daemonFails : Event := .daemon { error := some "unavailable" } 1

def helperFails : Event := .helper { error := some "unavailable" }

/-- An upgrade up to the command that starts the helper. No report of progress is stored. -/
def prepareEvents : List Event :=
  .daemonStarts [.execute] :: daemonSteps 8 ++ [daemonFails] ++ daemonSteps 2 ++ [daemonFails] ++
    daemonSteps 6 ++ [daemonFails]

/-- The helper from its start to the switch, and to the check of the new binary. -/
def switchEvents : List Event := helperSteps 7 ++ [helperFails] ++ helperSteps 4

def startEvents : List Event := helperSteps 1 ++ [helperFails] ++ helperSteps 2

def failureSite : Site :=
  exampleSite (exampleReport .failed "failed" "UPDATE_PREFLIGHT_FAILED" "Connection timed out" "old")

def successSite : Site := exampleSite (exampleReport .succeeded "completed" "" "" "new")

/-- `systemd-run` reports a failure although the helper was started. -/
def lateFailure : Event := .daemon { error := some "Connection timed out", started := true } 1

/-- The helper reads the task, the daemon completes the plan and stores the failure, and the helper
switches the binary. -/
def lateFailureEvents : List Event :=
  prepareEvents ++ [lateFailure] ++ helperSteps 6 ++ daemonSteps 3 ++ helperSteps 1 ++
    [helperFails] ++ helperSteps 4

theorem lateFailure_untruthful :
    ¬ ∀ (site : Site) (old : String) (m : Machine) (events : List Event), m.Start site old →
      Truthful site old (m.run site events).world := by
  intro h
  have htruthful := h failureSite "old" exampleMachine lateFailureEvents (exampleMachine_start _)
  have hinstalled := htruthful.failed (some []) _ (by decide +kernel) rfl (.inr rfl)
  revert hinstalled
  decide +kernel

/-- The recovery of a restarted service reads a plan that says `starting`; the helper finds the
binary healthy, stores `local_healthy` and is cut off; the recovery then finds no helper, puts the
backup back and is cut off; and the next one takes the plan for a success. -/
def recoveryRaceEvents : List Event :=
  prepareEvents ++ daemonSteps 1 ++ [.daemonStops] ++ switchEvents ++ startEvents ++
    [.daemonStarts []] ++ daemonSteps 1 ++ helperSteps 1 ++ [.helperStops] ++ daemonSteps 4 ++
    [.daemonStops, .daemonStarts []] ++ daemonSteps 6

theorem recoveryRace_untruthful :
    ¬ Truthful successSite "old" (exampleMachine.run successSite recoveryRaceEvents).world := by
  intro htruthful
  have hinstalled := (htruthful.succeeded (some []) (by decide +kernel)).1
  revert hinstalled
  decide +kernel

/-! ## A fair run -/

instance (answer : Answer) (w w' : World) : Decidable (Updater.Fair answer w w') :=
  decidable_of_iff
    ((w.helperUnit = false → w'.helperUnit = true → answer.error = none) ∧
      (w.plan.map Plan.phase = some .localHealthy → w'.replaced = w.replaced)) <| by
    constructor
    · exact fun h => ⟨h.1, fun plan hplan hphase => h.2 (by rw [hplan, Option.map_some, hphase])⟩
    · refine fun h => ⟨h.started, fun hphase => ?_⟩
      obtain ⟨plan, hplan, hphase⟩ := Option.map_eq_some_iff.1 hphase
      exact h.fresh plan hplan hphase

instance (site : Site) (m : Machine) (event : Event) : Decidable (m.Fair site event) :=
  match event with
  | .daemon _ _ => inferInstanceAs (Decidable (Updater.Fair _ _ _))
  | .helper _ | .helperStops | .daemonStops | .daemonStarts _ => isTrue trivial

instance decidableFairRun (site : Site) :
    (m : Machine) → (events : List Event) → Decidable (m.FairRun site events)
  | _, [] => isTrue trivial
  | m, event :: events =>
    have := decidableFairRun site (m.step site event) events
    inferInstanceAs (Decidable (m.Fair site event ∧ (m.step site event).FairRun site events))

/-- An upgrade that succeeds. -/
def successEvents : List Event :=
  prepareEvents ++ daemonSteps 1 ++ [.daemonStops] ++ switchEvents ++ startEvents ++
    helperSteps 1 ++ [helperFails] ++ helperSteps 3

theorem success_truthful :
    Terminal successSite (exampleMachine.run successSite successEvents).world ∧
      Truthful successSite "old" (exampleMachine.run successSite successEvents).world :=
  ⟨⟨.succeeded, some [], by decide +kernel, .inl rfl⟩,
    (upgrade_truthful (exampleMachine_start _) successEvents [] (by decide +kernel)).1⟩

end Bifurcation.Daemon.Updater
