import Bifurcation.Panel.ConfigurationSpec

/-!
# The invariant of configurations

What the tables of configurations say about each other, and that every change keeps it.

**Revisions.** The revisions of a machine carry the versions from one on, in the order in which
they were published, and the machine desires the last of them. A revision is what its settings
render to under a refresh of the run, and the users of that refresh are in the machine's history.
A preview was rendered under an earlier refresh than the one it is published under, but both have
one policy revision, and one policy revision is one authorization (`authorization_eq_of_revision`).

**Targets.** The last task of a binding epoch that applies a configuration carries the desired
revision, and no other such task is queued. A publication supersedes what is queued, a rebinding
begins an epoch without tasks. The reconciliation enqueues under a key that names the epoch and
the policy: a task under this key says that the machine has desired this policy since then, so
a later publication is never taken for an earlier one.

Main results: `ConfigInv.targeted` (a publication keeps the invariant), `ConfigInv.published`,
`ConfigInv.reconciled` and `ConfigInv.rebound`.
-/

namespace Bifurcation.Panel

open Javascript

/-! ## Policy numbers and keys -/

theorem integerOf_toString (n : Int) : integerOf (toString n) = n := by
  cases n with
  | ofNat m =>
    have hdigits : (toString (Int.ofNat m)).toList = Nat.toDigits 10 m := by
      rw [show toString (Int.ofNat m) = Nat.repr m from rfl, Nat.repr, String.toList_ofList]
    have hsign : ∀ rest, Nat.toDigits 10 m ≠ '-' :: rest := fun rest h => by
      have hmem : '-' ∈ m.repr.toList := by
        rw [Nat.repr, String.toList_ofList, h]
        exact List.mem_cons_self
      exact absurd (isDigit_of_mem_toString hmem) (by decide)
    unfold integerOf
    rw [hdigits]
    split
    · rename_i rest h
      exact absurd h (hsign rest)
    · rw [Nat.ofDigitChars_ten_toDigits]
      rfl
  | negSucc m =>
    have hdigits : (toString (Int.negSucc m)).toList = '-' :: Nat.toDigits 10 (m + 1) := by
      rw [show toString (Int.negSucc m) = "-" ++ Nat.repr (m + 1) from rfl, String.toList_append,
        Nat.repr, String.toList_ofList, String.toList_ofList]
      exact List.singleton_append
    unfold integerOf
    rw [hdigits]
    simp only [Nat.ofDigitChars_ten_toDigits]
    rfl

theorem policyNumber_of_text {authorization : AuthorizationLayer} {n : Int}
    (h : authorization.policyRevision = integerText n) : policyNumber authorization = n := by
  rw [policyNumber, h, integerText, textOf_utf16, integerOf_toString]

theorem textOf_integerText (n : Int) : textOf (integerText n) = toString n := textOf_utf16 _

theorem notMem_toString (n : Int) : ':' ∉ (toString n).toList := by
  have hdigits : ∀ m : ℕ, ':' ∉ m.repr.toList := fun m h =>
    absurd (isDigit_of_mem_toString h) (by decide)
  intro hmem
  cases n with
  | ofNat m => exact hdigits m hmem
  | negSucc m =>
    rw [show toString (Int.negSucc m) = "-" ++ Nat.repr (m + 1) from rfl, String.toList_append,
      List.mem_append] at hmem
    rcases hmem with hmem | hmem
    · exact absurd hmem (by decide)
    · exact hdigits _ hmem

theorem toString_int_injective : Function.Injective (toString : Int → String) :=
  fun _ _ h => Int.repr_injective h

/-- What comes before the first colon, and what comes after it. -/
theorem colon_inj {s t xs ys : List Char} (hs : ':' ∉ s) (ht : ':' ∉ t)
    (h : s ++ ':' :: xs = t ++ ':' :: ys) : s = t ∧ xs = ys := by
  have hspan : ∀ {l : List Char} (zs : List Char), ':' ∉ l →
      (l ++ ':' :: zs).takeWhile (· ≠ ':') = l := by
    intro l zs hl
    rw [List.takeWhile_append_of_pos]
    · simp
    · rintro c hc
      refine decide_eq_true fun heq => hl ?_
      rwa [← heq]
  have hleft : s = t := by rw [← hspan xs hs, h, hspan ys ht]
  subst hleft
  exact ⟨rfl, (List.cons.inj (List.append_cancel_left h)).2⟩

/-- A key names its epoch and its policy. -/
theorem policyKey_inj {machineId : String} {epoch epoch' policy policy' : Int}
    (h : policyKey machineId epoch (toString policy) =
      policyKey machineId epoch' (toString policy')) : epoch = epoch' ∧ policy = policy' := by
  have hchars := congrArg String.toList h
  simp only [policyKey, String.toList_append, List.append_assoc, List.append_cancel_left_eq]
    at hchars
  obtain ⟨hepoch, hpolicy⟩ := colon_inj (notMem_toString _) (notMem_toString _) hchars
  exact ⟨toString_int_injective (String.toList_injective hepoch),
    toString_int_injective (String.toList_injective hpolicy)⟩

/-- A drawn id begins with a hexadecimal digit. -/
theorem isUuid_eq_false {s : String} {c : Char} {cs : List Char} (hs : s.toList = c :: cs)
    (hc : isHex c = false) : isUuid s = false := by
  have hne : ∀ t : String, (∃ d ∈ t.toList.head?, isHex d = true) → s ≠ t := by
    rintro t ⟨d, hd, hhex⟩ rfl
    rw [hs, List.head?_cons, Option.mem_some_iff] at hd
    rw [← hd, hc] at hhex
    cases hhex
  have hzero := hne "00000000-0000-0000-0000-000000000000" ⟨'0', by decide, by decide⟩
  have hones := hne "ffffffff-ffff-ffff-ffff-ffffffffffff" ⟨'f', by decide, by decide⟩
  by_cases hdash : c = '-'
  · subst hdash
    simp [isUuid, hs, hzero, hones, List.splitOn, List.splitOnP_cons_eq_if_modifyHead]
  · have hgroups : ∃ g gs, s.toList.splitOn '-' = (c :: g) :: gs := by
      cases hrest : List.splitOnP (· == '-') cs with
      | nil => exact absurd hrest (List.splitOnP_ne_nil _ _)
      | cons g gs =>
        refine ⟨g, gs, ?_⟩
        rw [hs]
        simp [List.splitOn, List.splitOnP_cons_eq_if_modifyHead, hrest, hdash]
    obtain ⟨g, gs, hgroups⟩ := hgroups
    simp [isUuid, hgroups, hzero, hones, hc]

/-- A drawn id is no such key. -/
theorem policyKey_ne {key machineId policy : String} {epoch : Int} (h : isUuid key = true) :
    key ≠ policyKey machineId epoch policy := by
  rintro rfl
  have hchars : (policyKey machineId epoch policy).toList = 'p' :: ("olicy:".toList ++
      machineId.toList ++ ":".toList ++ (toString epoch).toList ++ ":".toList ++
      policy.toList) := by
    simp [policyKey]
  rw [isUuid_eq_false hchars (by decide)] at h
  cases h

/-! ## The invariant -/

/-- What a preview and the revision it becomes have in common. -/
structure Content where
  settingsCiphertext : String
  renderedCiphertext : String
  digest : String
  policyRevision : Int
deriving DecidableEq

def PreviewRow.content (row : PreviewRow) : Content :=
  ⟨row.settingsCiphertext, row.renderedCiphertext, row.digest, row.policyRevision⟩

def RevisionRow.content (row : RevisionRow) : Content :=
  ⟨row.settingsCiphertext, row.renderedCiphertext, row.digest, row.policyRevision⟩

section Invariant

variable {N : Type} (js : Runtime N) (codec : Codec) (vault : ConfigVault N)

/-- **Rendered under a refresh**: the text and the digest are those of the stored settings with
the authorization of the refresh. -/
structure Content.RenderedBy (content : Content) (record : Refreshed) : Prop where
  policy : content.policyRevision = record.revision
  text : ∃ settings, vault.settingsOf content.settingsCiphertext = some settings ∧
    vault.renderedOf content.renderedCiphertext =
      some (jsonText js (renderServer js settings record.authorization)) ∧
    content.digest = sha256 (jsonBytes js (renderServer js settings record.authorization))

/-- The revisions of a machine, in the order of their publication. -/
def revisionsOf (machineId : String) (db : Database) : List (String × RevisionRow) :=
  db.configRevisions.rows.filter fun x => x.2.machineId = machineId

/-- **The revisions of a machine and the row that points at the last of them.** -/
structure Publication (machineId : String) (db : Database) : Prop where
  versions : ∀ (i : ℕ) (x : String × RevisionRow),
    (revisionsOf machineId db)[i]? = some x → x.2.version = i + 1
  version : (configRow machineId db).version = (revisionsOf machineId db).length
  desired : (configRow machineId db).desiredRevisionId =
    (revisionsOf machineId db).getLast?.map Prod.fst
  settings : (configRow machineId db).settingsCiphertext =
    (revisionsOf machineId db).getLast?.map fun x => x.2.settingsCiphertext
  policy : (configRow machineId db).desiredPolicyRevision = 0 ∨
    some (configRow machineId db).desiredPolicyRevision =
      (revisionsOf machineId db).getLast?.map fun x => x.2.policyRevision

/-- A machine's users are in its history. -/
def Remembered (db : Database) (row : RevisionRow) : Prop :=
  ∀ userId ∈ row.authorizedUserIds,
    (db.machineUserHistory.get? (row.machineId, userId)).isSome = true

/-- **A published revision**: rendered under a refresh, for its users, who are remembered. -/
structure Published (record : Refreshed) (db : Database) (row : RevisionRow) : Prop where
  rendered : row.content.RenderedBy js vault record
  users : row.authorizedUserIds = userIds record.authorization
  remembered : Remembered db row

/-- A preview that was published names the revision it became. -/
def PublishedAs (db : Database) (preview : PreviewRow) : Prop :=
  ∀ revisionId, preview.publishedRevisionId = some revisionId →
    ∃ row, db.configRevisions.get? revisionId = some row ∧ row.machineId = preview.machineId ∧
      row.content = preview.content

/-- The tasks of a binding epoch that apply a configuration. -/
def AppliesAt (machineId : String) (bindingEpoch : Int) (task : TaskRow) : Prop :=
  task.machineId = machineId ∧ task.bindingEpoch = bindingEpoch ∧ task.kind = .applyConfig

/-- What a task under the key of a policy says. -/
structure Keyed (log : List Refreshed) (db : Database) (task : TaskRow)
    (bindingEpoch policyRevision : Int) : Prop where
  epoch : task.bindingEpoch = bindingEpoch
  policy : ∃ record ∈ log, record.revision = policyRevision
  desired : ∀ machine, db.machines.get? task.machineId = some machine →
    machine.bindingEpoch = bindingEpoch →
      policyRevision ≤ (configRow task.machineId db).desiredPolicyRevision

/-- **The targets of machines.** -/
structure Targets (log : List Refreshed) (db : Database) : Prop where
  sound : MachinesSound db
  epochs : ∀ x ∈ db.tasks.rows, ∃ machine, db.machines.get? x.2.machineId = some machine ∧
    x.2.bindingEpoch ≤ machine.bindingEpoch
  enrolled : ∀ x ∈ db.tasks.rows, x.2.kind = .applyConfig → 1 ≤ x.2.bindingEpoch
  last : ∀ machineId machine x, db.machines.get? machineId = some machine →
    db.tasks.Last (AppliesAt machineId machine.bindingEpoch) x →
      ∃ revisionId, (configRow machineId db).desiredRevisionId = some revisionId ∧
        x.2.payload = codec.taskSpecToBinary
          (.applyConfig revisionId (configRow machineId db).desiredPolicyRevision)
  queued : ∀ x ∈ db.tasks.rows, x.2.kind = .applyConfig → x.2.state = .queued →
    db.tasks.Last (AppliesAt x.2.machineId x.2.bindingEpoch) x
  keys : ∀ x ∈ db.tasks.rows, ∀ bindingEpoch policyRevision : Int,
    x.2.requestKey = policyKey x.2.machineId bindingEpoch (toString policyRevision) →
      Keyed log db x.2 bindingEpoch policyRevision
  pending : ∀ machineId, (configRow machineId db).desiredPolicyRevision ≠ 0 →
    ∃ machine x, db.machines.get? machineId = some machine ∧
      db.tasks.Last (AppliesAt machineId machine.bindingEpoch) x

/-- **The invariant of configurations**, with the refreshes of the run. -/
structure ConfigInv (log : List Refreshed) (db : Database) : Prop where
  publications : ∀ machineId, Publication machineId db
  revisions : ∀ x ∈ db.configRevisions.rows, ∃ record ∈ log, Published js vault record db x.2
  previews : ∀ x ∈ db.configPreviews.rows,
    (∃ record ∈ log, x.2.content.RenderedBy js vault record) ∧ PublishedAs db x.2
  targets : Targets codec log db

end Invariant

section Preservation

variable {N : Type} {js : Runtime N} {codec : Codec} {vault : ConfigVault N}
  {log log' : List Refreshed} {db db' : Database}

theorem configInv_empty : ConfigInv js codec vault [] Database.empty where
  publications := fun _ =>
    ⟨fun i x h => absurd h (by simp [revisionsOf, Database.empty, Table.empty]),
      rfl, rfl, rfl, .inl rfl⟩
  revisions := fun x h => by cases h
  previews := fun x h => by cases h
  targets :=
    { sound := fun id row h => by cases h
      epochs := fun x h => by cases h
      enrolled := fun x h => by cases h
      last := fun id machine x h => by cases h
      queued := fun x h => by cases h
      keys := fun x h => by cases h
      pending := fun _ h => absurd rfl h }

/-- Changes elsewhere, and configuration rows that say the same. -/
theorem ConfigInv.congr (h : ConfigInv js codec vault log db)
    (hrows : ∀ id, configRow id db' = configRow id db)
    (hrevisions : db'.configRevisions = db.configRevisions)
    (hpreviews : db'.configPreviews = db.configPreviews)
    (hhistory : db'.machineUserHistory = db.machineUserHistory)
    (hmachines : db'.machines = db.machines) (htasks : db'.tasks = db.tasks)
    (hlog : ∀ record ∈ log, record ∈ log') : ConfigInv js codec vault log' db' where
  publications := fun id => by
    have hp := h.publications id
    have hof : revisionsOf id db' = revisionsOf id db := by
      rw [revisionsOf, hrevisions, revisionsOf]
    exact ⟨by rw [hof]; exact hp.versions, by rw [hrows, hof]; exact hp.version,
      by rw [hrows, hof]; exact hp.desired, by rw [hrows, hof]; exact hp.settings,
      by rw [hrows, hof]; exact hp.policy⟩
  revisions := fun x hx => by
    rw [hrevisions] at hx
    obtain ⟨record, hmem, hp⟩ := h.revisions x hx
    refine ⟨record, hlog record hmem, hp.rendered, hp.users, ?_⟩
    rw [Remembered, hhistory]
    exact hp.remembered
  previews := fun x hx => by
    rw [hpreviews] at hx
    obtain ⟨⟨record, hmem, hp⟩, hpublished⟩ := h.previews x hx
    refine ⟨⟨record, hlog record hmem, hp⟩, ?_⟩
    rw [PublishedAs, hrevisions]
    exact hpublished
  targets :=
    { sound := by
        rw [MachinesSound, hmachines]
        exact h.targets.sound
      epochs := by
        rw [htasks, hmachines]
        exact h.targets.epochs
      enrolled := by
        rw [htasks]
        exact h.targets.enrolled
      last := by
        intro id machine x hmachine hx
        rw [hmachines] at hmachine
        rw [htasks] at hx
        rw [hrows]
        exact h.targets.last id machine x hmachine hx
      queued := by
        rw [htasks]
        exact h.targets.queued
      keys := by
        intro x hx bindingEpoch policyRevision hkey
        rw [htasks] at hx
        obtain ⟨hepoch, ⟨record, hmem, hpolicy⟩, hdesired⟩ :=
          h.targets.keys x hx bindingEpoch policyRevision hkey
        refine ⟨hepoch, ⟨record, hlog record hmem, hpolicy⟩, ?_⟩
        rw [hmachines, hrows]
        exact hdesired
      pending := by
        intro id hne
        rw [hrows] at hne
        rw [hmachines, htasks]
        exact h.targets.pending id hne }

/-! ### Machines and their tasks -/

theorem appliesAt_of_same {machineId : String} {bindingEpoch : Int} {task task' : TaskRow}
    (h : SameTask task task') :
    AppliesAt machineId bindingEpoch task' ↔ AppliesAt machineId bindingEpoch task := by
  rw [AppliesAt, AppliesAt, h.machineId, h.bindingEpoch, h.kind]

section Later

variable {again : String → Prop}

/-- A machine that a task of its epoch was made for is not in an epoch that began since. -/
theorem epoch_of_later (h : Targets codec log db) (hlater : MachinesLater again db db')
    {x : String × TaskRow} (hx : x ∈ db.tasks.rows) {machine' : MachineRow}
    (hmachine' : db'.machines.get? x.2.machineId = some machine')
    (hepoch : machine'.bindingEpoch = x.2.bindingEpoch) :
    ∃ machine, db.machines.get? x.2.machineId = some machine ∧
      machine.bindingEpoch = x.2.bindingEpoch := by
  obtain ⟨machine, hmachine, hle⟩ := h.epochs x hx
  obtain ⟨machine'', hmachine'', hle', -⟩ := hlater _ machine hmachine
  rw [hmachine'] at hmachine''
  obtain rfl := Option.some.inj hmachine''
  exact ⟨machine, hmachine, le_antisymm (hepoch ▸ hle') hle⟩

/-- The machines in `again` begin an epoch, and desire no policy yet. -/
structure BeginsAgain (again : String → Prop) (db db' : Database) : Prop where
  rows : ∀ id, ¬ again id → configRow id db' = configRow id db
  desired : ∀ id, again id → (configRow id db').desiredPolicyRevision = 0
  epoch : ∀ id machine machine', again id → db.machines.get? id = some machine →
    db'.machines.get? id = some machine' → machine.bindingEpoch < machine'.bindingEpoch

/-- A machine whose task is of its current epoch did not begin it now. -/
theorem BeginsAgain.not_again (hagain : BeginsAgain again db db') (h : Targets codec log db)
    {x : String × TaskRow} (hx : x ∈ db.tasks.rows) {machine' : MachineRow}
    (hmachine' : db'.machines.get? x.2.machineId = some machine')
    (hepoch : machine'.bindingEpoch = x.2.bindingEpoch) : ¬ again x.2.machineId := by
  intro hid
  obtain ⟨machine, hmachine, hle⟩ := h.epochs x hx
  have hlt := hagain.epoch _ machine machine' hid hmachine hmachine'
  rw [hepoch] at hlt
  exact absurd hlt (not_lt.2 hle)

theorem Targets.later (h : Targets codec log db) (hlater : MachinesLater again db db')
    (hsound : MachinesSound db → MachinesSound db')
    (htasks : Table.Grows SameTask (fun _ => Foreign db') db.tasks db'.tasks)
    (hagain : BeginsAgain again db db') : Targets codec log db' where
  sound := hsound h.sound
  epochs := fun x' hx' => by
    rcases htasks.cases hx' with ⟨task, hmem, hsame⟩ | hforeign
    · obtain ⟨machine, hmachine, hle⟩ := h.epochs _ hmem
      obtain ⟨machine', hmachine', hle', -⟩ := hlater _ machine hmachine
      rw [hsame.machineId, hsame.bindingEpoch]
      exact ⟨machine', hmachine', hle.trans hle'⟩
    · exact hforeign.machine
  enrolled := fun x' hx' hkind => by
    rcases htasks.cases hx' with ⟨task, hmem, hsame⟩ | hforeign
    · rw [hsame.bindingEpoch]
      exact h.enrolled _ hmem (by rw [← hsame.kind]; exact hkind)
    · exact absurd hkind hforeign.kind
  last := fun machineId machine' x' hmachine' hx' => by
    obtain ⟨task, hlast, hsame⟩ := htasks.last (fun _ _ => appliesAt_of_same)
      (fun _ _ hforeign happlies => hforeign.kind happlies.2.2) hx'
    obtain ⟨hid, hepoch, -⟩ := hlast.kind
    dsimp only at hid hepoch
    subst hid
    obtain ⟨machine, hmachine, hepoch'⟩ := epoch_of_later h hlater hlast.mem hmachine' hepoch.symm
    rw [hagain.rows _ (hagain.not_again h hlast.mem hmachine' hepoch.symm), hsame.payload]
    rw [← hepoch, ← hepoch'] at hlast
    exact h.last _ machine _ hmachine hlast
  queued := fun x' hx' hkind hqueued => by
    rcases htasks.cases hx' with ⟨task, hmem, hsame⟩ | hforeign
    · have hlast := h.queued _ hmem (by rw [← hsame.kind]; exact hkind) (hsame.queued hqueued)
      obtain ⟨task', hlast', -⟩ := htasks.last_of (fun _ _ => appliesAt_of_same)
        (fun _ _ hforeign happlies => hforeign.kind happlies.2.2) hlast
      have htask' : task' = x'.2 :=
        Option.some.inj ((Table.get?_of_mem hlast'.mem).symm.trans (Table.get?_of_mem hx'))
      rw [hsame.machineId, hsame.bindingEpoch]
      rwa [htask'] at hlast'
    · exact absurd hkind hforeign.kind
  keys := fun x' hx' bindingEpoch policyRevision hkey => by
    rcases htasks.cases hx' with ⟨task, hmem, hsame⟩ | hforeign
    · rw [hsame.requestKey, hsame.machineId] at hkey
      obtain ⟨hepoch, hpolicy, hdesired⟩ := h.keys _ hmem bindingEpoch policyRevision hkey
      refine ⟨by rw [hsame.bindingEpoch, hepoch], hpolicy, fun machine' hmachine' hcurrent => ?_⟩
      rw [hsame.machineId] at hmachine' ⊢
      have hnow := hcurrent.trans hepoch.symm
      obtain ⟨machine, hmachine, hepoch'⟩ := epoch_of_later h hlater hmem hmachine' hnow
      rw [hagain.rows _ (hagain.not_again h hmem hmachine' hnow)]
      exact hdesired machine hmachine (hepoch'.trans hepoch)
    · exact absurd hkey (policyKey_ne hforeign.key)
  pending := fun machineId hne => by
    have hnot : ¬ again machineId := fun hid => hne (hagain.desired machineId hid)
    rw [hagain.rows machineId hnot] at hne
    obtain ⟨machine, x, hmachine, hlast⟩ := h.pending machineId hne
    obtain ⟨machine', hmachine', -, hepoch⟩ := hlater machineId machine hmachine
    have hpositive := h.enrolled x hlast.mem hlast.kind.2.2
    rw [hlast.kind.2.1] at hpositive
    have hsame : machine'.bindingEpoch = machine.bindingEpoch := by
      rcases hepoch with heq | hzero | hid
      · exact heq
      · rw [hzero] at hpositive
        exact absurd hpositive (by decide)
      · exact absurd hid hnot
    obtain ⟨task', hlast', -⟩ := htasks.last_of (fun _ _ => appliesAt_of_same)
      (fun _ _ hforeign happlies => hforeign.kind happlies.2.2) hlast
    exact ⟨machine', _, hmachine', hsame ▸ hlast'⟩

end Later

theorem ConfigInv.machineStep (h : ConfigInv js codec vault log db)
    (hstep : MachineStep (fun _ => False) db db') : ConfigInv js codec vault log db' := by
  have htargets := h.targets.later hstep.machines hstep.sound hstep.tasks
  obtain ⟨machines, tasks, rfl⟩ := hstep.frame
  exact
    { publications := fun id =>
        have hp := h.publications id
        ⟨hp.versions, hp.version, hp.desired, hp.settings, hp.policy⟩
      revisions := fun x hx => by
        obtain ⟨record, hmem, hp⟩ := h.revisions x hx
        exact ⟨record, hmem, hp.rendered, hp.users, hp.remembered⟩
      previews := h.previews
      targets := htargets ⟨fun _ _ => rfl, fun _ hid => hid.elim, fun _ _ _ hid => hid.elim⟩ }

/-- What `markForRebind` leaves. -/
def marked (machineId : String) (db : Database) : Database :=
  db.withConfigs (db.machineConfigs.updateWhere (fun id _ => id = machineId) fun row =>
    { row with desiredPolicyRevision := 0 })

theorem configRow_marked (machineId id : String) (db : Database) :
    configRow id (marked machineId db) =
      if id = machineId then { configRow id db with desiredPolicyRevision := 0 }
      else configRow id db := by
  unfold configRow marked Database.withConfigs
  dsimp only
  rw [Table.get?_updateWhere]
  cases hrow : db.machineConfigs.get? id with
  | none =>
    split_ifs <;> rfl
  | some row =>
    simp only [Option.map_some, Option.getD_some, decide_eq_true_eq]

/-- A rebinding begins an epoch without tasks, so nothing is said about its targets. -/
theorem ConfigInv.rebound {machineId token : String} {expectedVersion now : Int}
    (h : ConfigInv js codec vault log db)
    (hrebind : rebindMachine machineId expectedVersion token now db = .ok db') :
    ConfigInv js codec vault log db' := by
  simp only [rebindMachine, markForRebind, bind_eq_ok, get_eq_ok, pure_eq_ok] at hrebind
  obtain ⟨db₁, hrebind, -, -, rfl⟩ := hrebind
  change ConfigInv js codec vault log (marked machineId db₁)
  have hperform : perform codec now db (.rebind machineId expectedVersion token) =
      .ok (.rebound machineId, db₁) := by
    rw [perform, hrebind]
    rfl
  have hstep : MachineStep (· = machineId) db db₁ :=
    machineStep_effect (perform_effect hperform) (fun h => by cases h) fun id heq => by
      cases heq
      rfl
  have hepoch : ∀ machine machine', db.machines.get? machineId = some machine →
      db₁.machines.get? machineId = some machine' →
      machine.bindingEpoch < machine'.bindingEpoch := by
    intro machine machine' hmachine hmachine'
    simp only [rebind, bind_eq_ok, failIf_eq_ok, get_eq_ok, pure_eq_ok, exists_const] at hrebind
    obtain ⟨row, hrow, -, -, -, rfl⟩ := hrebind
    have hnew : (db.machines.set machineId (reboundRow row token)).get? machineId =
        some machine' := hmachine'
    rw [Table.get?_set, if_pos rfl] at hnew
    rw [← Option.some.inj hnew, ← Option.some.inj (hrow.1.symm.trans hmachine)]
    exact Int.lt_add_one_of_le le_rfl
  have hrow := fun id => configRow_marked machineId id db₁
  have hsame : ∀ id, configRow id db₁ = configRow id db := fun id => by
    obtain ⟨_, _, hframe⟩ := hstep.frame
    rw [hframe]
    rfl
  simp only [hsame] at hrow
  have hlater : MachinesLater (· = machineId) db (marked machineId db₁) := hstep.machines
  have hagain : BeginsAgain (· = machineId) db (marked machineId db₁) :=
    ⟨fun id hid => (hrow id).trans (if_neg hid), fun id hid => by rw [hrow, if_pos hid],
      fun id machine machine' hid => by rw [hid]; exact hepoch machine machine'⟩
  have htargets := h.targets.later hlater hstep.sound
    (hstep.tasks.mono fun _ _ hforeign => ⟨hforeign.kind, hforeign.key, hforeign.machine⟩) hagain
  obtain ⟨machines, tasks, rfl⟩ := hstep.frame
  refine ⟨fun id => ?_, fun x hx => ?_, h.previews, htargets⟩
  · have hp := h.publications id
    have hrow := hrow id
    by_cases heq : id = machineId
    · rw [if_pos heq] at hrow
      exact ⟨hp.versions, by rw [hrow]; exact hp.version, by rw [hrow]; exact hp.desired,
        by rw [hrow]; exact hp.settings, by rw [hrow]; exact .inl rfl⟩
    · rw [if_neg heq] at hrow
      exact ⟨hp.versions, by rw [hrow]; exact hp.version, by rw [hrow]; exact hp.desired,
        by rw [hrow]; exact hp.settings, by rw [hrow]; exact hp.policy⟩
  · obtain ⟨record, hmem, hp⟩ := h.revisions x hx
    exact ⟨record, hmem, hp.rendered, hp.users, hp.remembered⟩

/-! ### Previews -/

theorem configRow_ensured (machineId id : String) (db db' : Database) :
    configRow id (db'.withConfigs (ensured machineId db)) = configRow id db := by
  have hget : (db'.withConfigs (ensured machineId db)).machineConfigs.get? id =
      (ensured machineId db).get? id := rfl
  rw [configRow, hget, get?_ensured]
  split_ifs with heq
  · rw [Option.getD_some, heq]
  · rfl

/-- The policy number of a document is the revision of its refresh. -/
theorem policyNumber_refresh {vault : Vault} {fresh : String → String} {now : Int}
    {authorization : AuthorizationLayer} {db₁ : Database}
    (h : refresh vault fresh now db = .ok (authorization, db₁)) :
    policyNumber authorization = (refreshedBy now db authorization db₁).revision :=
  policyNumber_of_text (left_refreshedBy h).text

/-- A refresh, and the configuration row that `ensureMachine` creates. -/
theorem ConfigInv.refreshed {vault' : Vault} {fresh : String → String} {now : Int}
    {authorization : AuthorizationLayer} (h : ConfigInv js codec vault log db)
    (hrefresh : refresh vault' fresh now db = .ok (authorization, db')) (record : Refreshed) :
    ConfigInv js codec vault (log ++ [record]) db' := by
  obtain ⟨credentials, quotas, policy, rfl⟩ := refresh_frame hrefresh
  exact h.congr (fun _ => rfl) rfl rfl rfl rfl rfl fun r hr => List.mem_append_left _ hr

theorem ConfigInv.ensured {vault' : Vault} {fresh : String → String} {now : Int}
    {authorization : AuthorizationLayer} {db₁ : Database} (h : ConfigInv js codec vault log db)
    (hrefresh : refresh vault' fresh now db = .ok (authorization, db₁)) (record : Refreshed)
    (machineId : String) :
    ConfigInv js codec vault (log ++ [record]) (db₁.withConfigs (ensured machineId db)) := by
  obtain ⟨credentials, quotas, policy, rfl⟩ := refresh_frame hrefresh
  exact h.congr (fun id => configRow_ensured machineId id db _) rfl rfl rfl rfl rfl
    fun r hr => List.mem_append_left _ hr

theorem ConfigInv.setPreview {previewId : String} {preview : PreviewRow}
    (h : ConfigInv js codec vault log db)
    (hrendered : ∃ record ∈ log, preview.content.RenderedBy js vault record)
    (hpublished : PublishedAs db preview) :
    ConfigInv js codec vault log
      { db with configPreviews := db.configPreviews.set previewId preview } where
  publications := fun id =>
    have hp := h.publications id
    ⟨hp.versions, hp.version, hp.desired, hp.settings, hp.policy⟩
  revisions := fun x hx => by
    obtain ⟨record, hmem, hp⟩ := h.revisions x hx
    exact ⟨record, hmem, hp.rendered, hp.users, hp.remembered⟩
  previews := fun x hx => by
    have hget : (db.configPreviews.set previewId preview).get? x.1 = some x.2 :=
      Table.get?_of_mem hx
    rw [Table.get?_set] at hget
    split_ifs at hget with hid
    · rw [← Option.some.inj hget]
      exact ⟨hrendered, hpublished⟩
    · exact h.previews x (Table.mem_rows_iff.2 hget)
  targets :=
    have ht := h.targets
    ⟨ht.sound, ht.epochs, ht.enrolled, ht.last, ht.queued, fun x hx epoch policy hkey =>
      have hk := ht.keys x hx epoch policy hkey
      ⟨hk.epoch, hk.policy, hk.desired⟩, ht.pending⟩

/-- What a call drew opens to what it put in. -/
structure Draws.Opens (draws : Draws N) (vault : ConfigVault N)
    (settings : MachineConfigurationInput N) : Prop where
  settings : vault.settingsOf (draws.settings settings) = some settings
  rendered : ∀ text, vault.renderedOf (draws.rendered text) = some text

theorem ConfigInv.previewed {draws : Draws N} {now : Int} {machineId createdBy : String}
    {expectedVersion : Int} {settings : MachineConfigurationInput N}
    {authorization : AuthorizationLayer} {db₁ : Database} {result : ConfigurationPreview}
    (h : ConfigInv js codec vault log db) (hopens : draws.Opens vault settings)
    (hrefresh : refresh vault.toVault draws.secrets now db = .ok (authorization, db₁))
    (hpreview : preview js vault draws now machineId expectedVersion settings createdBy db =
      .ok (result, db')) :
    ConfigInv js codec vault (log ++ [refreshedBy now db authorization db₁]) db' := by
  obtain ⟨authorization', db₁', hrefresh', -, -, rfl⟩ := preview_eq_ok hpreview
  rw [hrefresh] at hrefresh'
  obtain ⟨rfl, rfl⟩ := Prod.mk.inj (Except.ok.inj hrefresh')
  refine (h.ensured hrefresh (refreshedBy now db authorization db₁) machineId).setPreview
    ⟨_, List.mem_append_right _ (List.mem_singleton_self _), ?_⟩ fun _ hnone => by cases hnone
  exact ⟨policyNumber_refresh hrefresh, settings, hopens.settings, hopens.rendered _, rfl⟩

/-! ### New targets -/

/-- The row that points at a revision. -/
def pointing (revisionId : String) (revision : RevisionRow) : ConfigRow where
  settingsCiphertext := some revision.settingsCiphertext
  version := revision.version
  desiredRevisionId := some revisionId
  desiredPolicyRevision := revision.policyRevision

/-- The database after a revision is published and the task that applies it is enqueued. -/
def targeted (codec : Codec) (machineId revisionId taskId requestKey : String)
    (machine : MachineRow) (revision : RevisionRow) (authorization : AuthorizationLayer)
    (now : Int) (db : Database) : Database :=
  enqueued machineId machine .applyConfig taskId
    (newTask machineId machine.bindingEpoch .applyConfig
      (codec.taskSpecToBinary (.applyConfig revisionId revision.policyRevision)) requestKey now)
    now (publication machineId revisionId revision (pointing revisionId revision) authorization db)

/-- **The next revision of a machine**, under the latest policy. -/
structure NextTarget (js : Runtime N) (vault : ConfigVault N) (log : List Refreshed)
    (machineId revisionId taskId requestKey : String) (machine : MachineRow)
    (revision : RevisionRow) (authorization : AuthorizationLayer) (db : Database) : Prop where
  registered : Registered db machineId machine
  installed : machine.installationId ≠ none
  fresh : db.configRevisions.get? revisionId = none
  owner : revision.machineId = machineId
  version : revision.version = (configRow machineId db).version + 1
  rendered : ∃ record ∈ log, revision.content.RenderedBy js vault record ∧
    record.authorization = authorization
  users : revision.authorizedUserIds = userIds authorization
  latest : ∀ record ∈ log, record.revision ≤ revision.policyRevision
  task : db.tasks.get? taskId = none
  key : isUuid requestKey = true ∨
    requestKey = policyKey machineId machine.bindingEpoch (toString revision.policyRevision)

theorem isSome_foldl_set {machineId : String} {userIds : List String}
    {history : Table (String × String) Unit} {key : String × String} :
    ((userIds.foldl (fun history userId => history.set (machineId, userId) ()) history).get?
      key).isSome = true ↔
      (key.1 = machineId ∧ key.2 ∈ userIds) ∨ (history.get? key).isSome = true := by
  induction userIds generalizing history with
  | nil => simp
  | cons userId userIds ih =>
    rw [List.foldl_cons, ih, Table.get?_set]
    by_cases heq : key = (machineId, userId)
    · subst heq
      simp
    · rw [if_neg heq, List.mem_cons]
      refine or_congr_left (and_congr_right fun hid => ⟨.inr, ?_⟩)
      rintro (huser | hmem)
      · exact absurd (Prod.ext hid huser) heq
      · exact hmem

/-- The history after the users are remembered. -/
theorem isSome_rememberUsers {machineId : String} {authorization : AuthorizationLayer}
    {key : String × String} :
    ((rememberUsers machineId authorization db).machineUserHistory.get? key).isSome = true ↔
      (key.1 = machineId ∧ key.2 ∈ userIds authorization) ∨
        (db.machineUserHistory.get? key).isSome = true :=
  isSome_foldl_set

section Targeted

variable {machineId revisionId taskId requestKey : String} {machine : MachineRow}
  {revision : RevisionRow} {authorization : AuthorizationLayer} {now : Int}

theorem configRow_targeted (id : String) :
    configRow id (targeted codec machineId revisionId taskId requestKey machine revision
      authorization now db) =
      if id = machineId then pointing revisionId revision else configRow id db := by
  have hget : (targeted codec machineId revisionId taskId requestKey machine revision
      authorization now db).machineConfigs =
      db.machineConfigs.set machineId (pointing revisionId revision) := rfl
  rw [configRow, hget, Table.get?_set]
  split_ifs
  · rw [Option.getD_some]
  · rfl

theorem rows_targeted (hfresh : db.configRevisions.get? revisionId = none) :
    (targeted codec machineId revisionId taskId requestKey machine revision authorization now
      db).configRevisions.rows = db.configRevisions.rows ++ [(revisionId, revision)] :=
  Table.rows_set_of_get?_eq_none hfresh revision

theorem revisionsOf_targeted (hfresh : db.configRevisions.get? revisionId = none)
    (howner : revision.machineId = machineId) (id : String) :
    revisionsOf id (targeted codec machineId revisionId taskId requestKey machine revision
      authorization now db) =
      revisionsOf id db ++ if id = machineId then [(revisionId, revision)] else [] := by
  rw [revisionsOf, rows_targeted hfresh, List.filter_append, revisionsOf]
  congr 1
  by_cases heq : id = machineId
  · subst heq
    rw [if_pos rfl, List.filter_cons_of_pos (by simpa using howner), List.filter_nil]
  · rw [if_neg heq, List.filter_cons_of_neg (by
      rw [howner, decide_eq_true_eq]
      exact fun h => heq h.symm), List.filter_nil]

theorem Publication.targeted {id : String}
    (h : ∀ id, Publication id db)
    (hnext : NextTarget js vault log machineId revisionId taskId requestKey machine revision
      authorization db) :
    Publication id (targeted codec machineId revisionId taskId requestKey machine revision
      authorization now db) := by
  have hp := h id
  have hof := @revisionsOf_targeted codec db machineId revisionId taskId requestKey machine
    revision authorization now hnext.fresh hnext.owner id
  have hrow := @configRow_targeted codec db machineId revisionId taskId requestKey machine
    revision authorization now id
  by_cases heq : id = machineId
  · subst heq
    rw [if_pos rfl] at hof hrow
    have hversion : revision.version = (revisionsOf id db).length + 1 := by
      rw [hnext.version, hp.version]
    refine ⟨?_, ?_, ?_, ?_, ?_⟩
    · intro i x hx
      rw [hof] at hx
      rcases lt_trichotomy i (revisionsOf id db).length with hlt | rfl | hgt
      · rw [List.getElem?_append_left hlt] at hx
        exact hp.versions i x hx
      · rw [List.getElem?_append_right le_rfl, Nat.sub_self, List.getElem?_cons_zero] at hx
        rw [← Option.some.inj hx]
        exact hversion
      · rw [List.getElem?_eq_none (by rw [List.length_append]; exact hgt)] at hx
        cases hx
    · rw [hrow, hof, List.length_append, pointing, hversion]
      simp
    · rw [hrow, hof, List.getLast?_concat]
      rfl
    · rw [hrow, hof, List.getLast?_concat]
      rfl
    · rw [hrow, hof, List.getLast?_concat]
      exact .inr rfl
  · rw [if_neg heq, List.append_nil] at hof
    rw [if_neg heq] at hrow
    exact ⟨by rw [hof]; exact hp.versions, by rw [hrow, hof]; exact hp.version,
      by rw [hrow, hof]; exact hp.desired, by rw [hrow, hof]; exact hp.settings,
      by rw [hrow, hof]; exact hp.policy⟩

/-- What becomes of the tasks of a machine that a new one supersedes. -/
theorem grows_supersede (machineId : String) (bindingEpoch now : Int)
    (tasks : Table String TaskRow) :
    Table.Grows SameTask (fun _ _ => False) tasks (supersede machineId bindingEpoch now tasks) := by
  refine @Table.grows_updateWhere String TaskRow SameTask _ SameTask.refl
    (coalesced machineId bindingEpoch)
    (fun task => { task with state := .superseded, updatedAt := now }) ?_ tasks
  intro _ _ _
  exact ⟨rfl, rfl, rfl, rfl, rfl, rfl, fun h => by cases h⟩

theorem get?_superseded_eq_none {machineId taskId : String} {bindingEpoch now : Int}
    {tasks : Table String TaskRow} (h : tasks.get? taskId = none) :
    (supersede machineId bindingEpoch now tasks).get? taskId = none := by
  rw [supersede, Table.get?_updateWhere, h]
  rfl

/-- No superseded task is queued. -/
theorem not_coalesced_of_queued {machineId : String} {bindingEpoch now : Int}
    {tasks : Table String TaskRow} {x : String × TaskRow}
    (hx : x ∈ (supersede machineId bindingEpoch now tasks).rows) (hqueued : x.2.state = .queued)
    (happlies : AppliesAt machineId bindingEpoch x.2) : False := by
  obtain ⟨old, -, rfl⟩ := List.mem_map.1 hx
  dsimp only at hqueued happlies
  split_ifs at hqueued happlies with hcoalesced
  obtain ⟨hid, hepoch, hkind⟩ := happlies
  exact hcoalesced (by simp [coalesced, hid, hepoch, hkind, hqueued])

/-- The tasks of a machine and the one that is added, at its place. -/
theorem Targets.targeted (h : Targets codec log db)
    (hnext : NextTarget js vault log machineId revisionId taskId requestKey machine revision
      authorization db) :
    Targets codec log (targeted codec machineId revisionId taskId requestKey machine revision
      authorization now db) := by
  set new := newTask machineId machine.bindingEpoch .applyConfig
    (codec.taskSpecToBinary (.applyConfig revisionId revision.policyRevision)) requestKey now
    with hnew
  set old := supersede machineId machine.bindingEpoch now db.tasks with hold
  have hgrows : Table.Grows SameTask (fun _ _ => False) db.tasks old := grows_supersede _ _ _ _
  have htasks : (Panel.targeted codec machineId revisionId taskId requestKey machine revision
      authorization now db).tasks = old.set taskId new := rfl
  have hnone : old.get? taskId = none := get?_superseded_eq_none hnext.task
  have hadd : Table.Grows Eq (fun _ task => task = new) old (old.set taskId new) :=
    Table.grows_set_of_none (fun _ => rfl) hnone rfl
  have hrow := @configRow_targeted codec db machineId revisionId taskId requestKey machine
    revision authorization now
  -- A row is the new one, or was there before.
  have hcases : ∀ x ∈ (old.set taskId new).rows, x = (taskId, new) ∨
      x ∈ old.rows ∧ ∃ task, (x.1, task) ∈ db.tasks.rows ∧ SameTask task x.2 := by
    intro x hx
    rw [Table.rows_set_of_get?_eq_none hnone] at hx
    rcases List.mem_append.1 hx with hx | hx
    · rcases hgrows.cases hx with hsame | hfalse
      · exact .inr ⟨hx, hsame⟩
      · exact hfalse.elim
    · exact .inl (List.mem_singleton.1 hx)
  refine ⟨h.sound, ?_, ?_, ?_, ?_, ?_, ?_⟩
  · intro x hx
    rcases hcases x hx with rfl | ⟨-, task, hmem, hsame⟩
    · exact ⟨machine, hnext.registered.1, le_rfl⟩
    · rw [hsame.machineId, hsame.bindingEpoch]
      exact h.epochs _ hmem
  · intro x hx hkind
    rcases hcases x hx with rfl | ⟨-, task, hmem, hsame⟩
    · exact (h.sound machineId machine hnext.registered.1).2 hnext.installed
    · rw [hsame.bindingEpoch]
      exact h.enrolled _ hmem (by rw [← hsame.kind]; exact hkind)
  · intro id machine' x hmachine' hlast
    rw [htasks] at hlast
    rw [hrow]
    by_cases heq : id = machineId
    · have hsame := hnext.registered.1.symm.trans (heq ▸ hmachine')
      obtain rfl := Option.some.inj hsame
      subst heq
      rw [Table.Last.of_set hnone ⟨rfl, rfl, rfl⟩ hlast, if_pos rfl]
      exact ⟨revisionId, rfl, rfl⟩
    · rw [if_neg heq]
      have hother : ¬ AppliesAt id machine'.bindingEpoch new := fun happlies =>
        heq happlies.1.symm
      obtain ⟨task, htask, hsame⟩ := hgrows.last (fun _ _ => appliesAt_of_same)
        (fun _ _ hfalse => hfalse.elim) (Table.last_of_set_of_not hnone hother hlast)
      rw [hsame.payload]
      exact h.last id machine' _ hmachine' htask
  · intro x hx hkind hqueued
    rw [htasks]
    rcases hcases x hx with rfl | ⟨hmem, task, htask, hsame⟩
    · exact Table.last_set_self hnone ⟨rfl, rfl, rfl⟩
    · have hother : ¬ AppliesAt x.2.machineId x.2.bindingEpoch new := by
        rintro ⟨hid, hepoch, -⟩
        exact not_coalesced_of_queued hmem hqueued ⟨hid.symm, hepoch.symm, hkind⟩
      have hlast := h.queued _ htask (by rw [← hsame.kind]; exact hkind) (hsame.queued hqueued)
      rw [← hsame.machineId, ← hsame.bindingEpoch] at hlast
      obtain ⟨task', hlast', -⟩ := hgrows.last_of (fun _ _ => appliesAt_of_same)
        (fun _ _ hfalse => hfalse.elim) hlast
      obtain ⟨task'', hlast'', rfl⟩ := hadd.last_of (fun _ _ heq => by rw [heq])
        (fun _ _ heq => by rwa [heq]) hlast'
      have heq : task' = x.2 :=
        Option.some.inj ((Table.get?_of_mem hlast'.mem).symm.trans (Table.get?_of_mem hmem))
      rwa [heq] at hlast''
  · intro x hx bindingEpoch policyRevision hkey
    rcases hcases x hx with rfl | ⟨-, task, htask, hsame⟩
    · rcases hnext.key with huuid | hpolicyKey
      · exact absurd hkey (policyKey_ne huuid)
      · obtain ⟨rfl, rfl⟩ := policyKey_inj (hpolicyKey.symm.trans hkey)
        obtain ⟨record, hmem, hrendered, -⟩ := hnext.rendered
        refine ⟨rfl, ⟨record, hmem, hrendered.policy.symm⟩, fun _ _ _ => ?_⟩
        rw [hrow]
        exact (if_pos rfl : (if machineId = machineId then pointing revisionId revision
          else configRow machineId db) = _).symm ▸ le_rfl
    · rw [hsame.requestKey, hsame.machineId] at hkey
      obtain ⟨hepoch, ⟨record, hmem, rfl⟩, hdesired⟩ :=
        h.keys _ htask bindingEpoch policyRevision hkey
      refine ⟨hsame.bindingEpoch.trans hepoch, ⟨record, hmem, rfl⟩, fun m hm hcurrent => ?_⟩
      rw [hrow]
      split_ifs with hid
      · exact hnext.latest record hmem
      · rw [hsame.machineId] at hm ⊢
        exact hdesired m hm hcurrent
  · intro id hne
    rw [htasks]
    by_cases heq : id = machineId
    · subst heq
      exact ⟨machine, _, hnext.registered.1, Table.last_set_self hnone ⟨rfl, rfl, rfl⟩⟩
    · rw [hrow, if_neg heq] at hne
      obtain ⟨machine', x, hmachine', hlast⟩ := h.pending id hne
      obtain ⟨task, htask, -⟩ := hgrows.last_of (fun _ _ => appliesAt_of_same)
        (fun _ _ hfalse => hfalse.elim) hlast
      obtain ⟨task', htask', -⟩ := hadd.last_of (fun _ _ heq => by rw [heq])
        (fun _ _ heq' happlies => heq (by rw [heq'] at happlies; exact happlies.1.symm)) htask
      exact ⟨machine', _, hmachine', htask'⟩

/-- **A publication keeps the invariant.** -/
theorem ConfigInv.targeted (h : ConfigInv js codec vault log db)
    (hnext : NextTarget js vault log machineId revisionId taskId requestKey machine revision
      authorization db) :
    ConfigInv js codec vault log (targeted codec machineId revisionId taskId requestKey machine
      revision authorization now db) where
  publications := fun _ => Publication.targeted h.publications hnext
  revisions := fun x hx => by
    have hremembered : ∀ row : RevisionRow, Remembered db row ∨
        (row.machineId = machineId ∧ row.authorizedUserIds = userIds authorization) →
        Remembered (Panel.targeted codec machineId revisionId taskId requestKey machine revision
          authorization now db) row := by
      intro row hrow userId huser
      refine isSome_rememberUsers.2 ?_
      rcases hrow with hold | ⟨hid, husers⟩
      · exact .inr (hold userId huser)
      · exact .inl ⟨hid, husers ▸ huser⟩
    rw [rows_targeted hnext.fresh] at hx
    rcases List.mem_append.1 hx with hx | hx
    · obtain ⟨record, hmem, hp⟩ := h.revisions x hx
      exact ⟨record, hmem, hp.rendered, hp.users, hremembered _ (.inl hp.remembered)⟩
    · rw [List.mem_singleton.1 hx]
      obtain ⟨record, hmem, hrendered, hauthorization⟩ := hnext.rendered
      exact ⟨record, hmem, hrendered, hauthorization ▸ hnext.users,
        hremembered _ (.inr ⟨hnext.owner, hnext.users⟩)⟩
  previews := fun x hx => by
    obtain ⟨hrendered, hpublished⟩ := h.previews x hx
    refine ⟨hrendered, fun id hid => ?_⟩
    obtain ⟨row, hrow, hrest⟩ := hpublished id hid
    refine ⟨row, ?_, hrest⟩
    have hne : id ≠ revisionId := by
      rintro rfl
      rw [hnext.fresh] at hrow
      cases hrow
    exact (Table.get?_set_of_ne _ _ hne).trans hrow
  targets := h.targets.targeted hnext

end Targeted

/-! ### Publications -/

theorem kind_applyConfig {revisionId : String} {policyRevision : Int} {kind : TaskKind}
    (h : (TaskSpec.applyConfig revisionId policyRevision).kind = some kind) :
    kind = .applyConfig := (Option.some.inj h).symm

/-- The first publication of a preview, whose target no stored task has. -/
theorem ConfigInv.published {start : Database} {draws : Draws N} {now : Int} {machineId : String}
    {input : PublishInput} {createdBy : String} {preview : PreviewRow} {taskId : String}
    {authorization : AuthorizationLayer} {db₁ : Database}
    (h : ConfigInv js codec vault log db) (hrun : PolicyRun vault.toVault start log db)
    (hhash : CollisionFree (log ++ [refreshedBy now db authorization db₁]))
    (hfound : Found machineId input.previewId createdBy db preview)
    (hpublishes : Publishes vault codec draws now machineId input createdBy preview authorization
      db₁ db db' taskId)
    (hnew : ∀ x ∈ db.tasks.rows, x.2.payloadHash ≠
      sha256 (codec.taskSpecToBinary (.applyConfig draws.id preview.policyRevision))) :
    ConfigInv js codec vault (log ++ [refreshedBy now db authorization db₁]) db' := by
  have hrefresh := hpublishes.refreshed
  set record := refreshedBy now db authorization db₁ with hrecord
  have hlast : record ∈ log ++ [record] := List.mem_append_right _ (List.mem_singleton_self _)
  have hrun' : PolicyRun vault.toVault start (log ++ [record]) db₁ := hrun.refreshed hrefresh
  -- The preview was rendered under an earlier refresh, with the same policy revision.
  obtain ⟨⟨earlier, hearlier, hrendered⟩, -⟩ := h.previews _ (Table.mem_rows_iff.2 hfound.row)
  have htext : integerText record.revision = integerText preview.policyRevision :=
    (left_refreshedBy hrefresh).text.symm.trans hpublishes.policy
  have hrevision : record.revision = preview.policyRevision := integerText_injective htext
  have hsame : earlier.authorization = authorization :=
    authorization_eq_of_revision hrun' hhash (List.mem_append_left _ hearlier) hlast
      (hrendered.policy.symm.trans hrevision.symm)
  have hensured := h.ensured hrefresh record machineId
  obtain ⟨credentials, quotas, policy, hdb₁⟩ := refresh_frame hrefresh
  have htasks : db₁.tasks = db.tasks := by rw [hdb₁]
  obtain ⟨machine, kind, hmachine, hkind,
    ⟨x, hx, -, -, -, hhashed, -⟩ | ⟨-, hnone, -, hable, rfl⟩⟩ :=
      enqueueTask_eq_ok hpublishes.enqueued
  · exact absurd hhashed (hnew x (htasks ▸ hx))
  obtain rfl := kind_applyConfig hkind
  have hrow := configRow_ensured machineId machineId db db₁
  have hnext : NextTarget js vault (log ++ [record]) machineId draws.id draws.taskId
      input.requestKey.1 machine
      (revisionOf preview machineId ((configRow machineId db).version + 1) now createdBy
        authorization)
      authorization (db₁.withConfigs (Panel.ensured machineId db)) :=
    { registered := hmachine
      installed := (enqueueable_eq_ok hable).2.1
      fresh := hpublishes.fresh
      owner := rfl
      version := by rw [hrow]; rfl
      rendered := ⟨earlier, List.mem_append_left _ hearlier, hrendered, hsame⟩
      users := rfl
      latest := fun r hr => by
        rw [show (revisionOf preview machineId ((configRow machineId db).version + 1) now createdBy
          authorization).policyRevision = record.revision from hrevision.symm]
        exact revision_le_latest hrun' hhash hr (by simp)
      task := hnone
      key := .inl input.requestKey.2 }
  refine @ConfigInv.setPreview _ _ _ _ _ _ input.previewId
    { preview with publishedRevisionId := some draws.id } (hensured.targeted hnext)
    ⟨earlier, List.mem_append_left _ hearlier, hrendered⟩ ?_
  intro revisionId hpublished
  obtain rfl := Option.some.inj hpublished
  refine ⟨_, Table.get?_set_self _ _ _, hfound.machine.symm, rfl⟩

/-- The publication of a reconciliation: its key says that it is not made before. -/
theorem Republishes.next {draws : Draws N} {now : Int} {machineId : String}
    {authorization : AuthorizationLayer} {machine : MachineRow} {current : ConfigRow}
    {settingsCiphertext : String} {settings : MachineConfigurationInput N} {taskId : String}
    {record : Refreshed}
    (hrepublishes : Republishes js vault codec draws now authorization machineId machine current
      settingsCiphertext settings db db' taskId)
    (h : Targets codec log db) (hmachine : db.machines.get? machineId = some machine)
    (hopens : ∀ text, vault.renderedOf (draws.rendered text) = some text)
    (hrecord : record ∈ log) (hauthorization : record.authorization = authorization)
    (htext : authorization.policyRevision = integerText record.revision)
    (hlatest : ∀ r ∈ log, r.revision ≤ record.revision) :
    ∃ revision requestKey,
      NextTarget js vault log machineId draws.id draws.taskId requestKey machine revision
        authorization db ∧
      revision.policyRevision = record.revision ∧
      db' = targeted codec machineId draws.id draws.taskId requestKey machine revision
        authorization now db := by
  have hnumber : policyNumber authorization = record.revision := policyNumber_of_text htext
  have hkeytext : textOf authorization.policyRevision = toString record.revision := by
    rw [htext, textOf_integerText]
  have hrow : configRow machineId db = current := by
    rw [configRow, hrepublishes.row, Option.getD_some]
  obtain ⟨row, kind, hregistered, hkind, ⟨x, hx, -, hid, hkey, -, -⟩ | ⟨-, hnone, -, hable, rfl⟩⟩ :=
    enqueueTask_eq_ok hrepublishes.enqueued
  · -- A task under the key says that the machine desires this policy already.
    rw [hkeytext, ← hid] at hkey
    have hkeyed := h.keys x hx machine.bindingEpoch record.revision hkey
    have hdesired := hkeyed.desired machine (by rw [hid]; exact hmachine) rfl
    rw [hid, hrow] at hdesired
    exact absurd hrepublishes.later (not_lt.2 (by rw [hnumber]; exact hdesired))
  obtain rfl := kind_applyConfig hkind
  have hsame : row = machine := Option.some.inj (hregistered.1.symm.trans hmachine)
  subst hsame
  refine ⟨reconciledRevision js draws now machineId (current.version + 1) settingsCiphertext
    settings authorization, policyKey machineId row.bindingEpoch
      (textOf authorization.policyRevision), ?_, hnumber, rfl⟩
  exact
    { registered := hregistered
      installed := (enqueueable_eq_ok hable).2.1
      fresh := hrepublishes.fresh
      owner := rfl
      version := by rw [hrow]; rfl
      rendered := by
        refine ⟨record, hrecord, ⟨hnumber, settings, hrepublishes.opened, ?_, ?_⟩, hauthorization⟩
        · rw [hauthorization]
          exact hopens _
        · rw [hauthorization]
          rfl
      users := rfl
      latest := fun r hr => by
        rw [show (reconciledRevision js draws now machineId (current.version + 1)
          settingsCiphertext settings authorization).policyRevision = record.revision from hnumber]
        exact hlatest r hr
      task := hnone
      key := .inr (by rw [hkeytext]; exact congrArg _ (congrArg toString hnumber.symm)) }

/-! ### Reconciliations -/

/-- Two databases that differ in configurations and tasks. -/
def SameButConfigs (db db' : Database) : Prop :=
  ∃ machineConfigs configPreviews configRevisions machineUserHistory tasks, db' =
    { db with machineConfigs, configPreviews, configRevisions, machineUserHistory, tasks }

theorem SameButConfigs.refl (db : Database) : SameButConfigs db db := ⟨_, _, _, _, _, rfl⟩

theorem SameButConfigs.trans {db'' : Database} (h : SameButConfigs db db')
    (h' : SameButConfigs db' db'') : SameButConfigs db db'' := by
  obtain ⟨_, _, _, _, _, rfl⟩ := h
  obtain ⟨_, _, _, _, _, rfl⟩ := h'
  exact ⟨_, _, _, _, _, rfl⟩

theorem enqueueTask_frame {id requestKey taskId task : String} {spec : TaskSpec} {now : Int}
    (h : enqueueTask codec id spec requestKey taskId now db = .ok (task, db')) :
    ∃ tasks, db' = { db with tasks } := by
  obtain ⟨_, _, -, -, ⟨_, -, -, -, -, -, rfl⟩ | ⟨-, -, -, -, rfl⟩⟩ := enqueueTask_eq_ok h
  · exact ⟨_, rfl⟩
  · exact ⟨_, rfl⟩

theorem sameButConfigs_enqueueTask {id requestKey taskId task : String} {spec : TaskSpec}
    {now : Int} (h : enqueueTask codec id spec requestKey taskId now db = .ok (task, db')) :
    SameButConfigs db db' := by
  obtain ⟨_, rfl⟩ := enqueueTask_frame h
  exact ⟨_, _, _, _, _, rfl⟩

theorem sameButConfigs_reconcileMachine {draws : Draws N} {now : Int}
    {authorization : AuthorizationLayer} {machineId : String} {machine : MachineRow} {done : Bool}
    (h : reconcileMachine js codec vault draws now authorization machineId machine db =
      .ok (done, db')) : SameButConfigs db db' := by
  rcases reconcileMachine_eq_ok h with ⟨-, rfl⟩ | ⟨-, _, _, _, _, hrepublishes⟩
  · exact .refl db'
  · exact SameButConfigs.trans ⟨_, _, _, _, _, rfl⟩
      (sameButConfigs_enqueueTask hrepublishes.enqueued)

/-- One machine of a reconciliation. -/
theorem reconcileStep_eq {draws : String → Draws N} {now : Int}
    {authorization : AuthorizationLayer} (state : List String × Database)
    (x : String × ConfigRow × MachineRow) :
    (reconcileStep js codec vault draws now authorization state x).2 = state.2 ∨
      ∃ db', reconcileMachine js codec vault (draws x.1) now authorization x.1 x.2.2 state.2 =
        .ok (true, db') ∧
        (reconcileStep js codec vault draws now authorization state x).2 = db' := by
  simp only [reconcileStep]
  split_ifs
  · exact .inl rfl
  · exact .inl rfl
  · exact .inl rfl
  · cases hmachine : reconcileMachine js codec vault (draws x.1) now authorization x.1 x.2.2
      state.2 with
    | error e => exact .inl rfl
    | ok r =>
      obtain ⟨done, db'⟩ := r
      cases done with
      | false => exact .inl rfl
      | true => exact .inr ⟨db', rfl, rfl⟩

theorem mem_configured {x : String × ConfigRow × MachineRow} :
    x ∈ configured db ↔ db.machineConfigs.get? x.1 = some x.2.1 ∧ Registered db x.1 x.2.2 := by
  simp only [configured, List.mem_filterMap, Option.map_eq_some_iff, Option.filter_eq_some_iff,
    Registered, Option.isNone_iff_eq_none]
  constructor
  · rintro ⟨y, hy, machine, ⟨hmachine, hactive⟩, rfl⟩
    exact ⟨Table.get?_of_mem hy, hmachine, hactive⟩
  · rintro ⟨hrow, hmachine, hactive⟩
    exact ⟨(x.1, x.2.1), Table.mem_rows_iff.2 hrow, x.2.2, ⟨hmachine, hactive⟩, rfl⟩

/-- What the loop of a reconciliation keeps. -/
theorem ConfigInv.reconcileSteps {draws : String → Draws N} {now : Int}
    {authorization : AuthorizationLayer} {record : Refreshed}
    (hopens : ∀ id text, vault.renderedOf ((draws id).rendered text) = some text)
    (hrecord : record ∈ log) (hauthorization : record.authorization = authorization)
    (htext : authorization.policyRevision = integerText record.revision)
    (hlatest : ∀ r ∈ log, r.revision ≤ record.revision)
    (xs : List (String × ConfigRow × MachineRow)) (state : List String × Database)
    (hmachines : ∀ x ∈ xs, state.2.machines.get? x.1 = some x.2.2)
    (h : ConfigInv js codec vault log state.2) :
    ConfigInv js codec vault log
      (xs.foldl (reconcileStep js codec vault draws now authorization) state).2 := by
  induction xs generalizing state with
  | nil => exact h
  | cons x xs ih =>
    rw [List.foldl_cons]
    rcases @reconcileStep_eq _ js codec vault draws now authorization state x with
      heq | ⟨db', hreconcile, heq⟩
    · exact ih _ (fun y hy => by rw [heq]; exact hmachines y (.tail _ hy)) (by rw [heq]; exact h)
    · obtain ⟨_, _, _, _, _, hframe⟩ := sameButConfigs_reconcileMachine hreconcile
      refine ih _ (fun y hy => ?_) ?_
      · rw [heq, hframe]
        exact hmachines y (.tail _ hy)
      · rw [heq]
        rcases reconcileMachine_eq_ok hreconcile with ⟨-, rfl⟩ | ⟨-, _, _, _, _, hrepublishes⟩
        · exact h
        · obtain ⟨revision, requestKey, hnext, -, rfl⟩ := hrepublishes.next h.targets
            (hmachines x (.head _)) (hopens x.1) hrecord hauthorization htext hlatest
          exact h.targeted hnext

/-- **A reconciliation keeps the invariant.** -/
theorem ConfigInv.reconciled {start db₁ : Database} {fresh : String → String}
    {draws : String → Draws N} {now : Int} {authorization : AuthorizationLayer}
    {changed : List String} (h : ConfigInv js codec vault log db)
    (hrun : PolicyRun vault.toVault start log db)
    (hhash : CollisionFree (log ++ [refreshedBy now db authorization db₁]))
    (hopens : ∀ id text, vault.renderedOf ((draws id).rendered text) = some text)
    (hrefresh : refresh vault.toVault fresh now db = .ok (authorization, db₁))
    (hreconcile : reconcile js codec vault fresh draws now db = .ok (changed, db')) :
    ConfigInv js codec vault (log ++ [refreshedBy now db authorization db₁]) db' := by
  simp only [reconcile, hrefresh, ok_bind, pure_eq_ok] at hreconcile
  have hresult := congrArg Prod.snd hreconcile
  rw [← show _ = db' from hresult]
  have hrun' := hrun.refreshed hrefresh
  refine ConfigInv.reconcileSteps hopens (List.mem_append_right _ (List.mem_singleton_self _)) rfl
    (left_refreshedBy hrefresh).text (fun r hr => revision_le_latest hrun' hhash hr (by simp)) _ _
    (fun x hx => (mem_configured.1 hx).2.1) ?_
  exact h.refreshed hrefresh _

end Preservation

end Bifurcation.Panel
