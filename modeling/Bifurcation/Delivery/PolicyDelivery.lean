import Bifurcation.Daemon.PolicySafety
import Bifurcation.Delivery.Documents

/-!
# Policies on their way to the daemon

The panel gives an authorization document with every answer, and the answers may be lost, come
late or come again. `PersistPolicy` refuses a document below its floor, and one at its floor with
other bytes.

**Where a stored policy comes from.** Only `Apply` writes the two policy columns, from a document
it was given; recovering, rolling back and closing leave them alone (`keeps_recover`,
`keeps_close`). So the floor of the daemon is always the revision of a document of the panel, and
its bytes are the canonical form of that document.

**Equal revisions.** Along a run of the panel equal revisions are one document, so what the daemon
is given at its floor has the very bytes it stores.

Main result: `policy_delivery`.
-/

namespace Bifurcation.Delivery

open Javascript Panel Daemon Prog

/-! ## The policy columns -/

section Columns

variable {S : Type}

/-- The policy columns of a core row. -/
def policyColumns (row : CoreRow) : Int × Bytes :=
  ((readCore row).policyFloor, (readCore row).authorization)

/-- A program leaves a condition on the policy columns true, wherever it is killed. -/
def Keeps {α : Type} (K : Int × Bytes → Prop) (x : AdapterM S α) : Prop :=
  Triple (fun _ => True) (fun m => K (policyColumns m.core)) x
    (fun _ m => K (policyColumns m.core)) fun m => K (policyColumns m.core)

variable {K : Int × Bytes → Prop} {α β : Type}

theorem keeps_pure (a : α) : Keeps K (pure a : AdapterM S α) := triple_pure fun _ h => h

theorem Keeps.bind {x : AdapterM S α} {f : α → AdapterM S β} (hx : Keeps K x)
    (hf : ∀ a, Keeps K (f a)) : Keeps K (x >>= f) := triple_bind hx hf

theorem Keeps.ite {c : Prop} [Decidable c] {x y : AdapterM S α} (hx : Keeps K x)
    (hy : Keeps K y) : Keeps K (if c then x else y) := triple_ite (fun _ => hx) fun _ => hy

theorem keeps_ask : Keeps K (ask : AdapterM S Answer) :=
  triple_ask (fun _ h => h) fun _ _ _ h => h

theorem keeps_get : Keeps K (Prog.get : AdapterM S (Machine S)) := triple_get fun _ h => h

theorem keeps_modify {f : Machine S → Machine S} (h : ∀ m, (f m).core = m.core) :
    Keeps K (Prog.modify f : AdapterM S PUnit) := triple_modify fun m hm => by rwa [h m]

theorem keeps_coreState : Keeps K (coreState (S := S)) :=
  keeps_ask.bind fun _ => keeps_get.bind fun _ => keeps_pure _

/-- A write that leaves the policy columns alone. -/
theorem keeps_writeCore {write : CoreRow → Except CoreError CoreRow}
    (h : ∀ row row', write row = .ok row' → policyColumns row' = policyColumns row) :
    Keeps K (writeCore (S := S) write) :=
  triple_writeCore (fun _ h => h) (fun m row hm hw => by
    rw [Machine.write]
    exact (h m.core row hw).symm ▸ hm) (fun _ _ h _ => h) fun _ _ _ _ h => h

theorem policyColumns_commit {revision : String} {policy : Int} {config : Bytes}
    (row row' : CoreRow) (h : commitCore revision policy config row = .ok row') :
    policyColumns row' = policyColumns row := by
  obtain ⟨saved, rfl, rfl⟩ := commitCore_eq_ok h
  rfl

theorem policyColumns_abort (row row' : CoreRow) (h : abortCore row = .ok row') :
    policyColumns row' = policyColumns row := by
  obtain ⟨saved, rfl, rfl⟩ := abortCore_eq_ok h
  rfl

theorem policyColumns_prepare {task revision : String} {policy : Int} {config : Bytes}
    (row row' : CoreRow) (h : prepareCore task revision policy config row = .ok row') :
    policyColumns row' = policyColumns row := by
  obtain ⟨saved, rfl, -, -, rfl⟩ := prepareCore_eq_ok h
  rfl

theorem keeps_build (raw authorization : Bytes) : Keeps K (build (S := S) raw authorization) :=
  triple_build (fun _ h => h) (fun _ h => h) fun _ _ _ _ _ h => h

theorem keeps_detach : Keeps K (detach (S := S)) := triple_detach fun _ h => h

theorem keeps_activate (current : Option Instance) : Keeps K (activate (S := S) current) :=
  keeps_modify fun _ => rfl

end Columns

section Calls

variable {S : Type} (sink : Option (S → List Counter → Except StoreError S))
  {K : Int × Bytes → Prop}

theorem keeps_closeInstance (current : Option Instance) : Keeps K (closeInstance sink current) :=
  closeInstance_frame sink (fun _ _ _ h => h) (fun _ h => h) current

theorem keeps_start (current : Instance) : Keeps K (start sink current) :=
  (start_frame sink (fun _ _ _ h => h) (fun _ h => h) current fun _ _ h => h).mono
    (fun _ h => h) (fun _ _ h => h.1) fun _ h => h

theorem keeps_restore (safe authorization : Bytes) : Keeps K (restore sink safe authorization) := by
  refine (keeps_build _ _).bind fun built => ?_
  cases built with
  | none => exact (keeps_activate _).bind fun _ => keeps_pure _
  | some restored =>
    refine (keeps_start sink restored).bind fun started => ?_
    obtain ⟨current, fault⟩ := started
    cases fault with
    | some fault =>
      exact (keeps_closeInstance sink _).bind fun _ =>
        (keeps_activate _).bind fun _ => keeps_pure _
    | none => exact (keeps_activate _).bind fun _ => keeps_pure _

theorem keeps_rollback (previous : CoreState) (cause : Fault) :
    Keeps K (rollback sink previous cause) := by
  refine keeps_detach.bind fun old => (keeps_closeInstance sink old).bind fun _ => ?_
  refine Keeps.ite ?_ (keeps_coreState.bind fun read => ?_)
  · exact (keeps_activate _).bind fun _ =>
      (keeps_writeCore policyColumns_abort).bind fun _ => keeps_pure _
  · cases read with
    | error fault => exact keeps_pure _
    | ok latest =>
      dsimp only
      cases mergeAuthorization previous.appliedConfig latest.authorization with
      | none => exact keeps_pure _
      | some safe =>
        refine (keeps_restore sink _ _).bind fun restored => ?_
        cases restored with
        | some fault => exact keeps_pure _
        | none =>
          refine (keeps_writeCore policyColumns_commit).bind fun written => ?_
          cases written <;> exact keeps_pure _

theorem keeps_fail (previous : CoreState) (revision : Int) (cause : Fault) :
    Keeps K (fail sink previous revision cause) :=
  Keeps.ite (keeps_rollback sink previous cause) (keeps_pure _)

theorem keeps_replaceWith (candidate : Instance) : Keeps K (replaceWith sink candidate) := by
  refine keeps_detach.bind fun old => (keeps_closeInstance sink old).bind fun _ => ?_
  refine (keeps_start sink candidate).bind fun started => ?_
  obtain ⟨current, fault⟩ := started
  cases fault with
  | some fault => exact (keeps_closeInstance sink _).bind fun _ => keeps_pure _
  | none => exact (keeps_activate _).bind fun _ => keeps_pure _

theorem keeps_applyPrepared (config : Configuration) (previous : CoreState)
    (candidate : Instance) : Keeps K (applyPrepared sink config previous candidate) := by
  refine (keeps_replaceWith sink candidate).bind fun replaced => ?_
  cases replaced with
  | some fault => exact keeps_rollback sink _ _
  | none =>
    refine (keeps_writeCore policyColumns_commit).bind fun written => ?_
    cases written with
    | some fault => exact keeps_rollback sink _ _
    | none =>
      refine keeps_coreState.bind fun read => ?_
      cases read <;> exact keeps_pure _

theorem keeps_applyPersisted (config : Configuration) (previous : CoreState) (revision : Int)
    (auth : Bytes) : Keeps K (applyPersisted sink config previous revision auth) := by
  unfold applyPersisted
  cases checkConfiguration config revision auth with
  | some cause => exact keeps_fail sink _ _ _
  | none =>
    refine keeps_get.bind fun m => Keeps.ite (keeps_pure _) ?_
    refine (keeps_build _ _).bind fun built => ?_
    cases built with
    | none => exact keeps_fail sink _ _ _
    | some candidate =>
      refine (keeps_writeCore policyColumns_prepare).bind fun written => ?_
      cases written with
      | some fault => exact keeps_pure _
      | none => exact keeps_applyPrepared sink _ _ _

/-- **`Apply` stores the policy it was given**, if any. -/
theorem keeps_apply (config : Configuration)
    (hgiven : ∀ auth revision canonical,
      parseAuthorization config.authorization = some (auth, revision, canonical) →
      K (revision, canonical)) : Keeps K (apply sink config) := by
  refine keeps_coreState.bind fun read => ?_
  cases read with
  | error fault => exact keeps_pure _
  | ok previous =>
    simp only
    cases hparse : parseAuthorization config.authorization with
    | none => exact keeps_pure _
    | some parsed =>
      obtain ⟨auth, revision, canonical⟩ := parsed
      refine Keeps.ite (keeps_pure _) (Keeps.bind ?_ fun written => ?_)
      · refine triple_writeCore (fun _ h => h) (fun m row _ hw => ?_) (fun _ _ h _ => h)
          fun _ _ _ _ h => h
        obtain ⟨-, -, rfl⟩ := persistPolicy_eq_ok hw
        exact hgiven auth revision canonical hparse
      · cases written with
        | some fault => exact keeps_pure _
        | none => exact keeps_applyPersisted sink _ _ _ _

theorem keeps_recover : Keeps K (recover sink) := by
  have hwith (saved : CoreState) (safe : Bytes) : Keeps K (recoverWith sink saved safe) := by
    refine (keeps_build _ _).bind fun built => ?_
    cases built with
    | none => exact keeps_pure _
    | some candidate =>
      refine (keeps_start sink candidate).bind fun started => ?_
      obtain ⟨current, fault⟩ := started
      cases fault with
      | some fault => exact (keeps_closeInstance sink _).bind fun _ => keeps_pure _
      | none =>
        exact (keeps_activate _).bind fun _ =>
          Keeps.ite (keeps_pure _) (keeps_writeCore policyColumns_commit)
  refine keeps_coreState.bind fun read => ?_
  cases read with
  | error fault => exact keeps_pure _
  | ok saved =>
    refine Keeps.ite (Keeps.ite (keeps_writeCore policyColumns_abort) (keeps_pure _))
      (Keeps.ite ?_ (hwith _ _))
    cases mergeAuthorization saved.appliedConfig saved.authorization with
    | none => exact keeps_pure _
    | some safe => exact hwith _ _

theorem keeps_close : Keeps K (close sink) := by
  refine keeps_detach.bind fun old => (keeps_closeInstance sink old).bind fun err => ?_
  refine (keeps_activate none).bind fun _ => ?_
  refine Keeps.bind (retryFinal_frame sink (fun _ _ _ h => h) fun _ h => h) fun retried => ?_
  cases retried with
  | some fault => exact keeps_pure _
  | none =>
    rcases err with _ | err
    · exact keeps_pure _
    · cases err <;> exact keeps_pure _

/-- The process may be killed in a call, and the core row is still there. -/
theorem Keeps.after {α : Type} {x : AdapterM S α} (h : Keeps K x) {m : Machine S}
    (hm : K (policyColumns m.core)) (answers : List Answer) :
    K (policyColumns (Machine.after (x.run m answers)).core) := by
  have hx := h m answers (fun _ _ => trivial) hm
  unfold Prog.run
  generalize x m answers = r at hx
  obtain ⟨m', _ | ⟨a, rest⟩⟩ := r
  · exact hx
  · exact hx.1

/-- The documents that the events of a run give to `Apply`. -/
def Given (D : Set Bytes) (events : List AdapterEvent) : Prop :=
  ∀ config answers, AdapterEvent.apply config answers ∈ events → config.authorization ∈ D

/-- A stored policy is none, or a document that was given. -/
def FromDocuments (D : Set Bytes) (columns : Int × Bytes) : Prop :=
  columns = (0, []) ∨ ∃ data ∈ D, ∃ auth,
    parseAuthorization data = some (auth, columns.1, columns.2)

/-- **The stored policy comes from a document that was given**, after every run. -/
theorem fromDocuments_runFrom {D : Set Bytes} {events : List AdapterEvent} (hgiven : Given D events)
    {m : Machine S} (hm : FromDocuments D (policyColumns m.core)) :
    FromDocuments D (policyColumns (m.runFrom sink events).core) := by
  induction events generalizing m with
  | nil => exact hm
  | cons event events ih =>
    refine ih (fun config answers hmem => hgiven config answers (List.mem_cons_of_mem _ hmem)) ?_
    cases event with
    | apply config answers =>
      refine (keeps_apply sink config fun auth revision canonical hparse => ?_).after hm answers
      exact .inr ⟨_, hgiven config answers List.mem_cons_self, auth, hparse⟩
    | recover answers => exact (keeps_recover sink).after hm answers
    | close answers => exact (keeps_close sink).after hm answers
    | restart => exact hm

end Calls

/-! ## The documents of the panel -/

section Panel

variable {N : Type} {js : Runtime N}

/-- The document of a refresh. -/
def Refreshed.document (js : Runtime N) (record : Refreshed) : Bytes :=
  jsonBytes js (record.authorization.json js)

/-- The documents of a run of the panel. -/
def documents (js : Runtime N) (log : List Refreshed) : Set Bytes :=
  {data | ∃ record ∈ log, data = Refreshed.document js record}

variable {vault : Vault} {db db' : Database} {log : List Refreshed}

/-- What the daemon reads of a document of the panel. -/
theorem parseAuthorization_logged (hjs : WritesIntegers js) (hrun : PolicyRun vault db log db')
    {record : Refreshed} (hmem : record ∈ log) {auth : Authorization} {revision : Int}
    {canonical : Bytes}
    (h : parseAuthorization (Refreshed.document js record) = some (auth, revision, canonical)) :
    revision = record.revision ∧ canonical = Json.print (received record.authorization).json := by
  obtain ⟨old, hleft, -⟩ := (policyHistory_run hrun).left record hmem
  exact (parseAuthorization_document hjs hleft.text h).2

/-- **A policy of the panel is stored** where the floor is not above its revision. -/
theorem persistPolicy_logged (hjs : WritesIntegers js) (hrun : PolicyRun vault db log db')
    (hhash : CollisionFree log) {row : CoreRow}
    (hrow : FromDocuments (documents js log) (policyColumns row)) {record : Refreshed}
    (hmem : record ∈ log) {auth : Authorization} {revision : Int} {canonical : Bytes}
    (hparse : parseAuthorization (Refreshed.document js record) =
      some (auth, revision, canonical)) :
    persistPolicy revision canonical row = .ok (some ((readCore row).persist revision canonical)) ↔
      (readCore row).policyFloor ≤ revision := by
  constructor
  · intro hok
    exact (persistPolicy_eq_ok hok).1
  · intro hle
    obtain ⟨-, hpositive, -⟩ := parseAuthorization_eq_some hparse
    rcases hle.lt_or_eq with hlt | heq
    · exact persistPolicy_of_lt hlt (zero_le_one.trans hpositive)
    -- at the floor, the stored bytes are those of an equal revision
    · have hsame : (readCore row).authorization = canonical := by
        rcases hrow with hnone | ⟨data, ⟨stored, hstored, rfl⟩, auth', hparse'⟩
        · have hfloor : (readCore row).policyFloor = 0 := congrArg Prod.fst hnone
          omega
        · obtain ⟨hrevision, hcanonical⟩ := parseAuthorization_logged hjs hrun hmem hparse
          obtain ⟨hrevision', hcanonical'⟩ := parseAuthorization_logged hjs hrun hstored hparse'
          have hequal : stored.revision = record.revision := by
            rw [← hrevision', ← hrevision]
            exact heq
          rw [hcanonical, ← authorization_eq_of_revision hrun hhash hstored hmem hequal]
          exact hcanonical'
      simp only [persistPolicy, bind_eq_ok, failIf_eq_ok, pure_eq_ok, exists_const, and_true]
      refine ⟨?_, by omega⟩
      rintro (hlt | ⟨-, -, hne⟩)
      · omega
      · exact hne hsame

/-- The floor is the revision of a document that was given. -/
theorem policyFloor_le_latest (hjs : WritesIntegers js) (hrun : PolicyRun vault db log db')
    (hhash : CollisionFree log) {row : CoreRow}
    (hrow : FromDocuments (documents js log) (policyColumns row)) {latest : Refreshed}
    (hlatest : latest ∈ log.getLast?) (hpositive : 0 ≤ latest.revision) :
    (readCore row).policyFloor ≤ latest.revision := by
  rcases hrow with hnone | ⟨data, ⟨stored, hstored, rfl⟩, auth, hparse⟩
  · have hfloor : (readCore row).policyFloor = 0 := congrArg Prod.fst hnone
    rwa [hfloor]
  · have hfloor : (readCore row).policyFloor = stored.revision :=
      (parseAuthorization_logged hjs hrun hstored hparse).1
    rw [hfloor]
    exact revision_le_latest hrun hhash hstored hlatest

/-- **The daemon never refuses a policy for its content.** The documents of a run of the panel may
reach the daemon in any order, again or not at all, and its calls may fail or be killed anywhere:
a document whose ids and passwords have the form the panel draws is read as it was meant, it is
refused exactly when the floor is above its revision, and the latest is always stored. -/
theorem policy_delivery (hjs : WritesIntegers js) (hrun : PolicyRun vault Database.empty log db)
    (hhash : CollisionFree log) {S : Type}
    (sink : Option (S → List Counter → Except StoreError S)) (usage : S)
    {events : List AdapterEvent} (hgiven : Given (documents js log) events) {record : Refreshed}
    (hmem : record ∈ log) (hdrawn : Drawn record.authorization) :
    let row := ((Machine.init usage).runFrom sink events).core
    ∃ canonical, parseAuthorization (Refreshed.document js record) =
        some (received record.authorization, record.revision, canonical) ∧
      (persistPolicy record.revision canonical row =
          .ok (some ((readCore row).persist record.revision canonical)) ↔
        (readCore row).policyFloor ≤ record.revision) ∧
      (record ∈ log.getLast? → (readCore row).policyFloor ≤ record.revision) := by
  intro row
  have hrow : FromDocuments (documents js log) (policyColumns row) :=
    fromDocuments_runFrom sink hgiven (.inl rfl)
  obtain ⟨hvalid, hlow, hhigh, htext⟩ := validLayer_logged hrun hmem hdrawn
  have hparse := parseAuthorization_valid hjs htext hlow hhigh hvalid
  refine ⟨_, hparse, persistPolicy_logged hjs hrun hhash hrow hmem hparse, fun hlatest => ?_⟩
  exact policyFloor_le_latest hjs hrun hhash hrow hlatest (zero_le_one.trans hlow)

end Panel

/-- The document of the first of two revisions. -/
def renewalTask : Configuration where
  taskID := "task"
  revisionID := "revision"
  policyRevision := 1
  latestPolicyRevision := 1
  json := []
  sha256 := ""
  authorization := Refreshed.document decimalRuntime
    (refreshedBy 0 accountDb (afterRefresh accountDb).1 (afterRefresh accountDb).2)

theorem renewal_delivered : ∃ record ∈ renewal.getLast?, ∀ answers : List Answer,
    let row := ((Machine.init ()).runFrom none [.apply renewalTask answers]).core
    ∃ auth canonical, parseAuthorization (Refreshed.document decimalRuntime record) =
        some (auth, record.revision, canonical) ∧
      persistPolicy record.revision canonical row =
        .ok (some ((readCore row).persist record.revision canonical)) := by
  obtain ⟨db, hrun⟩ := renewal_run
  have hlatest : renewed.authorization =
      ⟨integerText 2, [⟨utf16 "u", ⟨utf16 "second", utf16 "second"⟩⟩]⟩ := by decide +kernel
  have hdrawn : Drawn renewed.authorization := by
    rw [hlatest]
    exact ⟨by decide +kernel, by decide +kernel⟩
  refine ⟨renewed, renewed_mem, fun answers => ?_⟩
  have hgiven : Given (documents decimalRuntime renewal) [.apply renewalTask answers] := by
    intro config answers' hmem
    obtain ⟨rfl, -⟩ := AdapterEvent.apply.inj (List.mem_singleton.1 hmem)
    refine ⟨refreshedBy 0 accountDb (afterRefresh accountDb).1 (afterRefresh accountDb).2, ?_, rfl⟩
    exact List.mem_append_left _ (List.mem_append_left _ (List.mem_singleton_self _))
  obtain ⟨canonical, hparse, hstored, hfloor⟩ :=
    policy_delivery writesIntegers_decimal hrun renewal_collisionFree none () hgiven
      (List.mem_of_getLast? renewed_mem) hdrawn
  exact ⟨_, canonical, hparse, hstored.2 (hfloor renewed_mem)⟩

end Bifurcation.Delivery
