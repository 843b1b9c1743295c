import Bifurcation.Daemon.Acceptable

/-!
# When revocation takes effect

Once `Apply` has stored a policy revision, each of its exits should leave no instance of an
earlier policy running. All exits but one do: when the checks pass and the candidate is built, a
`PrepareCore` that fails makes `Apply` return with the old instance still active.
-/

namespace Bifurcation.Daemon

open Prog

variable {S : Type} (sink : Option (S → List Counter → Except StoreError S))

/-- A policy that `Apply` has just stored, and the environment's answers that are left. -/
structure Admitted where
  revision : Int
  authorization : Bytes
  row : CoreRow
  answers : List Answer

/-- The first part of `Apply`, up to and including `PersistPolicy`, where it succeeds. -/
def admitted (config : Configuration) (m : Machine S) (answers : List Answer) : Option Admitted :=
  match answers with
  | read :: write :: answers =>
    if ¬ (read.stored ∧ write.stored) then none else
    match parseAuthorization config.authorization with
    | none => none
    | some (_, revision, authorization) =>
      if revision ≠ config.latestPolicyRevision then none else
      match persistPolicy revision authorization m.core with
      | .error _ => none
      | .ok row => some { revision, authorization, row, answers }
  | _ => none

/-- If this call of `Apply` stores a policy and returns, no instance of an earlier policy is
running afterwards. -/
def RevocationEnforced (config : Configuration) (m : Machine S) (answers : List Answer) : Prop :=
  ∀ a, admitted config m answers = some a →
    ∀ m' result, (apply sink config).run m answers = (m', some result) → m'.Revoked a.revision

/-- The checks pass, the candidate is built, `PrepareCore` fails, and an instance of an earlier
policy is running. -/
def KeepsOld (config : Configuration) (m : Machine S) (answers : List Answer) : Prop :=
  ∃ a, admitted config m answers = some a ∧
    checkConfiguration config a.revision a.authorization = none ∧
    unchanged m.active (readCore m.core) config = false ∧
    (builtFrom config.json a.authorization).isSome ∧
    (∃ box prepare rest, a.answers = box :: prepare :: rest ∧ box.ok = true ∧
      PrepareFails config a.row prepare) ∧
    ∃ current, m.active = some current ∧ current.revision < a.revision

theorem admitted_answers {config : Configuration} {m : Machine S} {answers : List Answer}
    {a : Admitted} (h : admitted config m answers = some a) :
    ∃ read write, answers = read :: write :: a.answers := by
  unfold admitted at h
  split at h
  · next read write rest =>
    split_ifs at h
    split at h
    · cases h
    · split_ifs at h
      split at h
      · cases h
      · cases h
        exact ⟨read, write, rfl⟩
  · cases h

theorem admitted_eq_some {config : Configuration} {m : Machine S} {answers : List Answer}
    {a : Admitted} (h : admitted config m answers = some a) :
    (∃ parsed, parseAuthorization config.authorization = some (parsed, a.revision, a.authorization)) ∧
    persistPolicy a.revision a.authorization m.core = .ok a.row ∧
    apply sink config m answers = applyPersisted sink config (readCore m.core) a.revision
      a.authorization (m.write a.row) a.answers := by
  unfold admitted at h
  split at h
  · next read write rest =>
    split_ifs at h with hstored
    split at h
    · cases h
    · next parsed revision authorization hparse =>
      split_ifs at h with hrevision
      split at h
      · cases h
      · next row hwrite =>
        cases h
        refine ⟨⟨parsed, hparse⟩, hwrite, ?_⟩
        simp [apply, coreState, writeCore, hstored, hparse, hrevision, hwrite]
  · cases h

/-- A candidate that cannot be prepared leaves the machine as it is. -/
theorem applyPersisted_prepareFails {config : Configuration} {previous : CoreState} {revision : Int}
    {auth : Bytes} {m : Machine S} (hcheck : checkConfiguration config revision auth = none)
    (hchanged : unchanged m.active previous config = false)
    (hbuilt : (builtFrom config.json auth).isSome) {box prepare : Answer} (hbox : box.ok = true)
    (hfails : PrepareFails config m.core prepare) (rest : List Answer) :
    ∃ result, applyPersisted sink config previous revision auth m (box :: prepare :: rest) =
      (m, some (result, rest)) := by
  obtain ⟨⟨users, built⟩, hbuilt⟩ := Option.isSome_iff_exists.1 hbuilt
  by_cases hstored : prepare.stored
  · obtain ⟨e, he⟩ := hfails.resolve_left (by simp [hstored])
    exact ⟨⟨.unset, [.core e]⟩, by
      simp [applyPersisted, applyBuilt, build, writeCore, hcheck, hchanged, hbuilt, hbox, hstored,
        he]⟩
  · exact ⟨⟨.unset, [.database]⟩, by
      simp [applyPersisted, applyBuilt, build, writeCore, hcheck, hchanged, hbuilt, hbox,
        hstored]⟩

/-- A run that satisfies a triple whose postcondition enforces the policy. -/
theorem revoked_of_triple {f : Int} {P : Machine S → Prop} {x : AdapterM S ApplyResult}
    (h : Triple (fun _ => True) P x (fun _ => Machine.Enforced f) (Machine.Sound f))
    {m m' : Machine S} (hm : P m) {answers rest : List Answer} {result : ApplyResult}
    (hrun : x m answers = (m', some (result, rest))) : m'.Revoked f := by
  have hx := h m answers (fun _ _ => trivial) hm
  rw [hrun] at hx
  exact hx.1.revoked

/-- Every other exit of `Apply` enforces the policy it has stored. -/
theorem applyPersisted_revoked {config : Configuration} {previous saved : CoreState}
    {f : Int} {m m' : Machine S} {answers rest : List Answer} {result : ApplyResult}
    (hm : m.Holds f saved m.active) (hfloor : saved.policyFloor = f)
    (hserves : saved.Serves m.active) (hconfig : previous.appliedConfig = saved.appliedConfig)
    (hpolicy : previous.appliedPolicy = saved.appliedPolicy)
    (hkeeps : ∀ box prepare rest, answers = box :: prepare :: rest →
      checkConfiguration config f saved.authorization = none →
      unchanged m.active previous config = false →
      (builtFrom config.json saved.authorization).isSome → box.ok = true →
      PrepareFails config m.core prepare → m.Revoked f)
    (hrun : applyPersisted sink config previous f saved.authorization m answers =
      (m', some (result, rest))) : m'.Revoked f := by
  have hsaved : saved.Consistent := hm.2.1 ▸ hm.1.consistent
  have hexit := applyPersisted_exit sink config previous f saved.authorization m answers
  generalize applyPersisted sink config previous f saved.authorization m answers = out at hexit hrun
  cases hexit with
  | failed cause rest' _ =>
    exact revoked_of_triple (triple_fail sink cause hsaved hfloor hserves hconfig hpolicy) hm hrun
  | running hcheck hunchanged =>
    -- the configuration of this very policy is running
    obtain ⟨rfl, -⟩ := Prod.mk.inj hrun
    intro current hc
    simp only [unchanged, Bool.and_eq_true, decide_eq_true_eq] at hunchanged
    rw [← (checkConfiguration_eq_none hcheck).1, ← hunchanged.1.2, hpolicy]
    exact (hserves current hc).1
  | killed => cases hrun
  | refused hcheck hchanged hbuilt box prepare rest' hanswers hbox hfails result' =>
    obtain ⟨rfl, -⟩ := Prod.mk.inj hrun
    exact hkeeps box prepare rest' hanswers hcheck hchanged hbuilt hbox hfails
  | prepared hcheck hchanged built hbuilt box prepare rest' _ _ _ row hprepare =>
    -- from here on the old instance is gone
    obtain ⟨hrevision, hlists⟩ := checkConfiguration_eq_none hcheck
    have hcandidate := (hsaved.built hbuilt).1.trans hfloor
    have hconsistent : (saved.prepare config.taskID config.revisionID
        config.policyRevision config.json).Consistent := hsaved.of_fields rfl rfl rfl rfl
    obtain ⟨saved', hcore, -, -, rfl⟩ := prepareCore_eq_ok hprepare
    obtain rfl : saved' = saved := by rw [← hm.2.1, hcore]; rfl
    exact revoked_of_triple (triple_applyPrepared sink hconsistent hfloor hconfig hlists hrevision
      rfl hcandidate) (hm.write hconsistent (le_refl _)) hrun

/-- In every reachable state, `Apply` enforces the policy it has stored unless it keeps the old
instance because `PrepareCore` failed. -/
theorem revocation_enforced_iff (usage : S) (events : List AdapterEvent) (config : Configuration)
    (answers : List Answer) :
    RevocationEnforced sink config ((Machine.init usage).runFrom sink events) answers ↔
      ¬ KeepsOld config ((Machine.init usage).runFrom sink events) answers := by
  have hsettled := settled_runFrom sink events (settled_init usage)
  generalize (Machine.init usage).runFrom sink events = m at hsettled
  obtain ⟨hsound, hlive⟩ := hsettled
  constructor
  · rintro henforced ⟨a, hadmitted, hcheck, hchanged, hbuilt, ⟨box, answer, rest, hrest, hbox, hfails⟩,
      current, hactive, hlt⟩
    obtain ⟨-, -, happly⟩ := admitted_eq_some sink hadmitted
    have hfails' : PrepareFails config (m.write a.row).core answer := hfails
    obtain ⟨result, hrun⟩ := applyPersisted_prepareFails sink (m := m.write a.row) hcheck hchanged
      hbuilt hbox hfails' rest
    have hrevoked := henforced a hadmitted (m.write a.row) result
      (by rw [Prog.run, happly, hrest, hrun]; rfl)
    exact absurd (hrevoked current hactive) (not_le.2 hlt)
  · intro hkeeps a hadmitted m' result hrun
    obtain ⟨⟨parsed, hparse⟩, hwrite, happly⟩ := admitted_eq_some sink hadmitted
    obtain ⟨hrow, hle, hconsistent⟩ := hsound.consistent.persist hparse hwrite
    have hholds : (m.write a.row).Holds a.revision ((readCore m.core).persist a.revision
        a.authorization) (m.write a.row).active := by
      rw [hrow]
      exact ⟨hsound.write hconsistent hle, rfl, rfl⟩
    rw [Prog.run, happly] at hrun
    cases hcall : applyPersisted sink config (readCore m.core) a.revision a.authorization
        (m.write a.row) a.answers with
    | mk t out =>
      rw [hcall] at hrun
      rcases out with _ | ⟨result', rest⟩
      · simp at hrun
      · simp only [Option.map_some, Prod.mk.injEq, Option.some.injEq] at hrun
        obtain ⟨rfl, rfl⟩ := hrun
        refine applyPersisted_revoked sink hholds rfl (hlive.of_fields rfl rfl) rfl rfl
          (fun box answer rest hrest hcheck hchanged hbuilt hbox hfails current hactive => ?_) hcall
        by_contra hlt
        exact hkeeps ⟨a, hadmitted, hcheck, hchanged, hbuilt, ⟨box, answer, rest, hrest, hbox, hfails⟩,
          current, hactive, not_le.1 hlt⟩

theorem not_enforced_of_lost {first second : Configuration} (h₁ : Acceptable first ["u"])
    (h₂ : Acceptable second []) (hle : 1 ≤ first.policyRevision)
    (hlt : first.policyRevision < second.policyRevision) :
    ¬ RevocationEnforced accepting second
      ((Machine.init ()).runFrom accepting [.apply first (List.replicate 12 works)])
      [works, works, works, lost] := by
  obtain ⟨stored, started, result, hfirst⟩ := apply_first h₁ hle
  obtain ⟨⟨auth, hparse⟩, hlatest, hcheck, hbuilt⟩ := h₂
  simp only [Machine.runFrom, List.foldl_cons, List.foldl_nil, Machine.step, hfirst, Machine.after]
  -- the policy of the second task is stored, and `PrepareCore` is not
  obtain ⟨row, hpersist⟩ : ∃ row, persistPolicy second.policyRevision second.authorization
      (some (appliedRow first)) = .ok (some row) :=
    ⟨_, persistPolicy_of_lt hlt (by omega)⟩
  generalize hm : Machine.mk _ _ _ _ _ _ = m
  have hcore : m.core = some (appliedRow first) := by rw [← hm]
  have hactive : m.active = some (runningInstance first ["u"]) := by rw [← hm]
  have hadmitted : admitted second m [works, works, works, lost] = some
      ⟨second.policyRevision, second.authorization, some row, [works, lost]⟩ := by
    simp [admitted, works, hparse, hlatest, hcore, hpersist]
  have hchanged : unchanged (m.write (some row)).active (readCore m.core) second = false := by
    rw [hcore]
    simp only [unchanged, Bool.and_eq_false_iff]
    exact .inl (.inr (decide_eq_false hlt.ne))
  obtain ⟨-, -, happly⟩ := admitted_eq_some accepting hadmitted
  obtain ⟨result, hrun⟩ := applyPersisted_prepareFails accepting hcheck hchanged
    (by rw [hbuilt]; rfl) (show works.ok = true from rfl) (.inl (show lost.stored = false from rfl)) []
  intro henforced
  have hrevoked := henforced _ hadmitted (m.write (some row)) result
    (by rw [Prog.run, happly, hrun]; rfl)
  exact absurd (hrevoked (runningInstance first ["u"]) hactive) (not_le.2 hlt)

/-- The database does not answer `PrepareCore` of the task that revokes the user: the call
returns, the policy is stored, and the user is still served. -/
theorem lost_prepare_keeps_user : ¬ RevocationEnforced accepting secondTask
    ((Machine.init ()).runFrom accepting [.apply firstTask (List.replicate 12 works)])
    [works, works, works, lost] :=
  not_enforced_of_lost firstTask_acceptable secondTask_acceptable (by decide) (by decide)

end Bifurcation.Daemon
