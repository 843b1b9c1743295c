import Bifurcation.Daemon.PolicySpec

/-!
# The installation identity on disk

`internal/identity/identity.go`: `Load` and `SaveBinding`, run by any number of processes that can
be killed, and whose file system steps can fail, at every point. `Load` reads `identity.json`, or
creates it exclusively and then writes it. `SaveBinding` writes a temporary file and renames it.

**A half made identity.** Between the creation of `identity.json` and the write that follows the
file is empty. Who reads it then fails, and if the process dies there everybody fails from then on.

**A stale binding.** `SaveBinding` compares the epoch with the identity that its caller once
loaded, not with the one on disk, which another process may have bound since.

**Power loss** keeps what was synced, and some of what was written after it. Neither function
syncs the directory, as `system.AtomicWrite` does, so a power loss may also undo the creation and
the renames that the file system has not written back on its own.

Main results: `identity_crash_safe` (in the runs that spare these points every `Load` succeeds with
one installation id, and the epoch is set once) and `identity_not_crash_safe` (runs that do not).
-/

namespace Bifurcation.Daemon

theorem parseInt64_toString {n : Int} (h : 0 ≤ n) (hle : n ≤ maxInt64) :
    parseInt64 (toString n) = some n := by
  obtain ⟨k, rfl⟩ := Int.eq_ofNat_of_zero_le h
  have hchars : (toString (k : Int)).toList = Nat.toDigits 10 k := by
    show (toString k).toList = _
    rw [Nat.toString_eq_repr, Nat.toList_repr]
  have hdigits : ∀ c ∈ Nat.toDigits 10 k, c.isDigit = true := fun c hc =>
    Nat.isDigit_of_mem_toDigits (by norm_num) (by norm_num) hc
  have hnil : Nat.toDigits 10 k ≠ [] := Nat.toDigits_ne_nil
  have hvalue : (Nat.toDigits 10 k).foldl (fun n c => 10 * n + (c.toNat - 48)) 0 = k := by
    have := Nat.ofDigitChars_ten_toDigits (n := k)
    rwa [Nat.ofDigitChars_eq_foldl] at this
  unfold parseInt64
  rw [hchars]
  cases hds : Nat.toDigits 10 k with
  | nil => exact absurd hds hnil
  | cons c cs =>
    have hc : c.isDigit = true := hdigits c (by rw [hds]; exact List.mem_cons_self)
    have hplus : c ≠ '+' := by
      rintro rfl
      exact absurd hc (by decide)
    have hminus : c ≠ '-' := by
      rintro rfl
      exact absurd hc (by decide)
    have hall : ¬ ((c :: cs).isEmpty ∨ ¬ (c :: cs).all Char.isDigit) := by
      rw [← hds, List.isEmpty_iff, not_or, not_not]
      exact ⟨hnil, List.all_eq_true.2 hdigits⟩
    rw [hds] at hvalue
    have hrange : decide (-maxInt64 - 1 ≤ (k : Int) ∧ (k : Int) ≤ maxInt64) = true :=
      decide_eq_true ⟨le_trans (by decide) h, hle⟩
    dsimp only
    split
    · simp_all
    · simp_all
    · rw [if_neg hall, hvalue, Option.filter_some, if_pos hrange]

structure Identity where
  installationId : String := ""
  bindingEpoch : Int := 0
deriving DecidableEq

namespace Identity

/-! ## The document -/

def json (i : Identity) : Json :=
  .obj [("installationId", .str i.installationId), ("bindingEpoch", .num (toString i.bindingEpoch))]

/-- `json.Marshal`. -/
def marshal (i : Identity) : Bytes := Json.print i.json

def decodeField (i : Identity) (m : String × Json) : Option Identity :=
  if sameField "installationId" m.1 then
    (decodeString i.installationId m.2).map fun s => { i with installationId := s }
  else if sameField "bindingEpoch" m.1 then
    (decodeInt i.bindingEpoch m.2).map fun n => { i with bindingEpoch := n }
  else some i

/-- `json.Unmarshal`. A name that no field has is skipped. -/
def unmarshal (body : Bytes) : Option Identity :=
  match Json.parse body with
  | some .null => some {}
  | some (.obj members) => members.foldlM decodeField {}
  | _ => none

/-- The identity that `Load` accepts. -/
def persisted (body : Bytes) : Option Identity :=
  (unmarshal body).filter fun i => i.installationId ≠ "" ∧ 0 ≤ i.bindingEpoch

/-- Twenty four random bytes. -/
abbrev Draw := { b : Bytes // b.length = 24 }

/-- `hex.EncodeToString`. -/
def encodeToString (b : Bytes) : String :=
  String.ofList (b.flatMap fun x => [Json.hexDigit (x.toNat / 16), Json.hexDigit (x.toNat % 16)])

def new (draw : Draw) : Identity where
  installationId := encodeToString draw.1

/-! ## Processes -/

/-- A file, and how much of it is synced. -/
structure File where
  content : Bytes := []
  synced : ℕ := 0
deriving DecidableEq

def File.write (file : File) (body : Bytes) : File := { file with content := file.content ++ body }

def File.sync (file : File) : File := { file with synced := file.content.length }

/-- The steps of `SaveBinding`. -/
inductive Stage where
  | createTemp
  | chmod
  | write
  | sync
  | close
  | rename
deriving DecidableEq

/-- What a process does next. -/
inductive Phase where
  | idle
  /-- `Load` reads the file. -/
  | reading
  /-- There was none: it is created exclusively. -/
  | creating (i : Identity)
  | writing (i : Identity)
  | syncing (i : Identity)
  | closing (i : Identity) (failed : Bool)
  /-- `SaveBinding` has a step to take, on its temporary file. -/
  | saving (stage : Stage) (next : Identity) (temporary : File)
deriving DecidableEq

structure Process where
  phase : Phase := .idle
  /-- The identity that its last `Load` returned. -/
  identity : Option Identity := none
deriving DecidableEq

inductive LoadError where
  /-- A step on the file system failed. -/
  | io
  /-- The file is no identity. -/
  | invalid
deriving DecidableEq

structure World where
  /-- `identity.json`. -/
  file : Option File := none
  /-- What it was before each change of the directory that is not on disk, the newest first. -/
  older : List (Option File) := []
  processes : ℕ → Process := fun _ => {}
  /-- What `Load` returned, the newest first. -/
  log : List (Except LoadError Identity) := []

inductive Event where
  | load (p : ℕ)
  | save (p : ℕ) (epoch : Int64)
  /-- A step succeeds. -/
  | step (p : ℕ) (draw : Draw)
  /-- A step fails. A write has written some bytes before. -/
  | fail (p : ℕ) (written : ℕ)
  | kill (p : ℕ)
  /-- The file system writes the directory back. -/
  | writeback
  /-- Every process dies. Of what was not synced, some is kept, and of the changes of the directory
  that are not on disk, some are undone. -/
  | powerLoss (kept undone : ℕ)

namespace World

def set (w : World) (p : ℕ) (process : Process) : World :=
  { w with processes := fun q => if q = p then process else w.processes q }

def move (w : World) (p : ℕ) (phase : Phase) : World :=
  w.set p { w.processes p with phase }

/-- The directory names another file. -/
def link (w : World) (file : File) : World :=
  { w with file := some file, older := w.file :: w.older }

/-- `f.Sync` of the file that `Load` has created. It may have been replaced since, and it is the
only one that can have anything left to sync: `SaveBinding` syncs its file before it renames it. -/
def sync (w : World) : World :=
  { w with file := w.file.map File.sync, older := w.older.map (Option.map File.sync) }

/-- What the directory names on disk, when some changes are undone. -/
def entry (w : World) : ℕ → Option File
  | 0 => w.file
  | n + 1 => w.older.getD n w.file

/-- `Load` returns. -/
def returns (w : World) (p : ℕ) (result : Except LoadError Identity) : World :=
  match result with
  | .ok i => { w.set p { identity := some i } with log := result :: w.log }
  | .error _ => { w.move p .idle with log := result :: w.log }

/-- `SaveBinding`, up to its first step. -/
def save (w : World) (p : ℕ) (epoch : Int) : World :=
  match (w.processes p).identity with
  | none => w
  | some i =>
    if epoch ≤ 0 ∨ (i.bindingEpoch ≠ 0 ∧ i.bindingEpoch ≠ epoch) then w
    else if i.bindingEpoch = epoch then w
    else w.move p (.saving .createTemp { i with bindingEpoch := epoch } {})

def saving (w : World) (p : ℕ) (next : Identity) (temporary : File) : Stage → World
  | .createTemp => w.move p (.saving .chmod next {})
  | .chmod => w.move p (.saving .write next temporary)
  | .write => w.move p (.saving .sync next (temporary.write next.marshal))
  | .sync => w.move p (.saving .close next temporary.sync)
  | .close => w.move p (.saving .rename next temporary)
  | .rename => (w.set p { identity := some next }).link temporary

/-- The next step of a process. `identity.json` is never removed, and is replaced only by a process
that has read it: a process that has created it writes the same file. -/
def advance (w : World) (p : ℕ) (draw : Draw) : World :=
  match (w.processes p).phase with
  | .idle => w
  | .reading =>
    match w.file with
    | none => w.move p (.creating (new draw))
    | some file =>
      match persisted file.content with
      | some i => w.returns p (.ok i)
      | none => w.returns p (.error .invalid)
  | .creating i =>
    match w.file with
    -- Somebody else has created it: `Load` starts again.
    | some _ => w.move p .reading
    | none => (w.move p (.writing i)).link {}
  | .writing i =>
    { w.move p (.syncing i) with file := w.file.map fun file => file.write i.marshal }
  | .syncing i => (w.move p (.closing i false)).sync
  | .closing i failed => w.returns p (if failed then .error .io else .ok i)
  | .saving stage next temporary => w.saving p next temporary stage

/-- The next step of a process fails. -/
def fail (w : World) (p written : ℕ) : World :=
  match (w.processes p).phase with
  | .idle => w
  | .reading => w.returns p (.error .io)
  | .creating _ => w.returns p (.error .io)
  | .writing i =>
    { w.move p (.closing i true) with
      file := w.file.map fun file => file.write (i.marshal.take written) }
  | .syncing i => w.move p (.closing i true)
  | .closing _ _ => w.returns p (.error .io)
  | .saving _ _ _ => w.move p .idle

def step (w : World) : Event → World
  | .load p => if (w.processes p).phase = .idle then w.move p .reading else w
  | .save p epoch => if (w.processes p).phase = .idle then w.save p epoch.toInt else w
  | .step p draw => w.advance p draw
  | .fail p written => w.fail p written
  | .kill p => w.set p {}
  | .writeback => { w with older := [] }
  | .powerLoss kept undone =>
    { w with
      file := (w.entry undone).map fun file =>
        let content := file.content.take (max file.synced kept)
        ⟨content, content.length⟩
      older := []
      processes := fun _ => {} }

/-- The identity on disk. -/
def stored (w : World) : Option Identity := w.file.bind fun file => persisted file.content

/-- A process has created `identity.json` and not written it. -/
def Writing (w : World) : Prop := ∃ p i, (w.processes p).phase = .writing i

/-- A `Load` that nothing disturbs: at most five steps. -/
def loadAlone (w : World) (p : ℕ) (draw : Draw) : World :=
  [Event.load p, .step p draw, .step p draw, .step p draw, .step p draw, .step p draw].foldl step w

/-- The event leaves no identity half made, meets none, binds no identity to an epoch while another
one is stored or about to be, and undoes no change of the directory. -/
def Spares (w : World) : Event → Prop
  | .load _ => True
  | .save p epoch => ∀ i, (w.processes p).identity = some i → i.bindingEpoch = 0 →
    (∀ j, w.stored = some j → j.bindingEpoch = 0 ∨ j.bindingEpoch = epoch.toInt) ∧
      ∀ q stage next temporary, (w.processes q).phase = .saving stage next temporary →
        next.bindingEpoch = epoch.toInt
  | .step p _ => (w.processes p).phase = .reading → ¬ w.Writing
  | .fail p _ => ∀ i, (w.processes p).phase ≠ .writing i
  | .kill p => ∀ i, (w.processes p).phase ≠ .writing i
  | .writeback => True
  | .powerLoss _ undone => ¬ w.Writing ∧ w.entry undone = w.file ∧
    ∀ file, w.file = some file → file.synced = file.content.length

end World

/-- The worlds that events with a property lead to. -/
inductive Runs (P : World → Event → Prop) (w : World) : World → Prop where
  | refl : Runs P w w
  | step {w' : World} (e : Event) (h : Runs P w w') (hP : P w' e) : Runs P w (w'.step e)

/-! ## The document is read back -/

structure Valid (i : Identity) : Prop where
  named : i.installationId ≠ ""
  nonneg : 0 ≤ i.bindingEpoch
  fits : i.bindingEpoch ≤ maxInt64

theorem sameField_identity :
    sameField "installationId" "installationId" = true ∧
      sameField "installationId" "bindingEpoch" = false ∧
      sameField "bindingEpoch" "bindingEpoch" = true := by decide

theorem Valid.wf {i : Identity} (h : i.Valid) : Json.WF i.json := by
  obtain ⟨n, hn⟩ := Int.eq_ofNat_of_zero_le h.nonneg
  have hnum : Json.WF (.num (toString i.bindingEpoch)) := by
    rw [hn]
    exact Json.wf_num_nat n
  simp only [json, Json.WF, Json.WFMembers, Json.WFMember, and_true, true_and] at hnum ⊢
  exact hnum

theorem Valid.parse {i : Identity} (h : i.Valid) : Json.parse i.marshal = some i.json :=
  Json.parse_print h.wf (by
    show Json.depth (.obj _) ≤ _
    simp only [Json.depth, Json.depthMembers, Json.depthMember]
    decide)

/-- **What is written is read back.** -/
theorem Valid.persisted_marshal {i : Identity} (h : i.Valid) : persisted i.marshal = some i := by
  obtain ⟨h₁, h₂, h₃⟩ := sameField_identity
  have hread : unmarshal i.marshal = some i := by
    simp only [unmarshal, h.parse, json, List.foldlM_cons, List.foldlM_nil, decodeField, h₁, h₂, h₃,
      if_true, Bool.false_eq_true, if_false, decodeString, decodeInt,
      parseInt64_toString h.nonneg h.fits, Option.map_some, Option.bind_eq_bind, Option.bind_some,
      Option.pure_def]
  rw [persisted, hread, Option.filter_some, if_pos (decide_eq_true ⟨h.named, h.nonneg⟩)]

theorem persisted_nil : persisted [] = none := by decide

theorem encodeToString_ne_empty (draw : Draw) : encodeToString draw.1 ≠ "" := by
  obtain ⟨b, hb⟩ := draw
  cases b with
  | nil => cases hb
  | cons x b =>
    intro h
    have hchars := congrArg String.toList h
    simp [encodeToString] at hchars

/-- An identity that was just drawn. -/
structure Drawn (i : Identity) : Prop where
  named : i.installationId ≠ ""
  unbound : i.bindingEpoch = 0

theorem drawn_new (draw : Draw) : (new draw).Drawn := ⟨encodeToString_ne_empty draw, rfl⟩

theorem Drawn.valid {i : Identity} (h : i.Drawn) : i.Valid where
  named := h.named
  nonneg := h.unbound.ge
  fits := h.unbound.le.trans (by decide)

/-! ## What every run keeps -/

/-- The same installation, which may have been bound since. -/
structure Older (j i : Identity) : Prop where
  installation : j.installationId = i.installationId
  epoch : j.bindingEpoch = 0 ∨ j.bindingEpoch = i.bindingEpoch

theorem Older.refl (i : Identity) : i.Older i := ⟨rfl, .inr rfl⟩

theorem Older.trans {i j k : Identity} (h : i.Older j) (h' : j.Older k) : i.Older k where
  installation := h.installation.trans h'.installation
  epoch := by
    rcases h.epoch with h | h
    · exact .inl h
    · rcases h'.epoch with h' | h'
      · exact .inl (h.trans h')
      · exact .inr (h.trans h')

/-- The temporary file before a step. -/
def Stage.temporary (next : Identity) : Stage → File
  | .createTemp => {}
  | .chmod => {}
  | .write => {}
  | .sync => ⟨next.marshal, 0⟩
  | .close => ⟨next.marshal, next.marshal.length⟩
  | .rename => ⟨next.marshal, next.marshal.length⟩

/-- What a process may be at while an identity is stored. -/
inductive PhaseBound (i : Identity) : Phase → Prop where
  | idle : PhaseBound i .idle
  | reading : PhaseBound i .reading
  | creating (j : Identity) : PhaseBound i (.creating j)
  | syncing {j : Identity} (older : j.Older i) : PhaseBound i (.syncing j)
  | closing {j : Identity} {failed : Bool} (older : j.Older i) : PhaseBound i (.closing j failed)
  | saving {stage : Stage} {next : Identity} (newer : i.Older next) (valid : next.Valid)
      (bound : next.bindingEpoch ≠ 0) :
      PhaseBound i (.saving stage next (stage.temporary next))

/-- An identity is stored, and everybody who has read one has read that installation. -/
structure Bound (i : Identity) (w : World) : Prop where
  valid : i.Valid
  file : ∃ synced, w.file = some ⟨i.marshal, synced⟩
  identities : ∀ p j, (w.processes p).identity = some j → j.Older i
  phases : ∀ p, PhaseBound i (w.processes p).phase
  saves : ∀ p q stage stage' next next' temporary temporary',
    (w.processes p).phase = .saving stage next temporary →
    (w.processes q).phase = .saving stage' next' temporary' →
    next.bindingEpoch = next'.bindingEpoch
  log : ∀ result ∈ w.log, result = .error .io ∨ ∃ j : Identity, result = .ok j ∧
    j.installationId = i.installationId

/-- What a process may be at while none is. -/
inductive PhaseFresh (writes : Prop) : Phase → Prop where
  | idle : PhaseFresh writes .idle
  | reading : PhaseFresh writes .reading
  | creating {j : Identity} (drawn : j.Drawn) : PhaseFresh writes (.creating j)
  | writing {j : Identity} (drawn : j.Drawn) (h : writes) : PhaseFresh writes (.writing j)

/-- No identity is stored yet. At most one process is about to write one. -/
structure Fresh (writer : Option ℕ) (w : World) : Prop where
  file : w.file = writer.map fun _ => {}
  identities : ∀ p, (w.processes p).identity = none
  phases : ∀ p, PhaseFresh (writer = some p) (w.processes p).phase
  writing : ∀ p, writer = some p → ∃ j, (w.processes p).phase = .writing j
  log : ∀ result ∈ w.log, result = .error .io

/-- What holds in every run that spares the identity. -/
def Safe (w : World) : Prop := (∃ writer, Fresh writer w) ∨ ∃ i, Bound i w

section Steps

variable {w w' : World} {i : Identity} {e : Event}

/-! ### While an identity is stored -/

/-- One process moves. -/
theorem Bound.update (h : Bound i w) (p : ℕ) (process : Process)
    (hprocesses : w'.processes = (w.set p process).processes)
    (hfile : ∃ synced, w'.file = some ⟨i.marshal, synced⟩)
    (hidentity : ∀ j, process.identity = some j → j.Older i)
    (hphase : PhaseBound i process.phase)
    (hsaves : ∀ stage next temporary, process.phase = .saving stage next temporary →
      ∀ q stage' next' temporary', (w.processes q).phase = .saving stage' next' temporary' →
        next.bindingEpoch = next'.bindingEpoch)
    (hlog : ∀ result ∈ w'.log, result ∈ w.log ∨ result = .error .io ∨
      ∃ j : Identity, result = .ok j ∧ j.installationId = i.installationId) : Bound i w' where
  valid := h.valid
  file := hfile
  identities q j := by
    rw [hprocesses]
    simp only [World.set]
    split_ifs
    · exact hidentity j
    · exact h.identities q j
  phases q := by
    rw [hprocesses]
    simp only [World.set]
    split_ifs
    · exact hphase
    · exact h.phases q
  saves q r stage stage' next next' temporary temporary' := by
    rw [hprocesses]
    simp only [World.set]
    split_ifs with hq hr hr
    · intro hsave hsave'
      cases hsave.symm.trans hsave'
      rfl
    · exact fun hsave => hsaves _ _ _ hsave r _ _ _
    · exact fun hsave hsave' => (hsaves _ _ _ hsave' q _ _ _ hsave).symm
    · exact h.saves q r _ _ _ _ _ _
  log result hresult := by
    rcases hlog result hresult with hold | hnew
    · exact h.log result hold
    · exact hnew

/-- One process moves, and is not saving. -/
theorem Bound.move (h : Bound i w) (p : ℕ) {phase : Phase} (hphase : PhaseBound i phase)
    (hsave : ∀ stage next temporary, phase ≠ .saving stage next temporary) :
    Bound i (w.move p phase) :=
  h.update p { w.processes p with phase } rfl h.file (h.identities p) hphase
    (fun _ _ _ heq => absurd heq (hsave _ _ _)) fun _ hresult => .inl hresult

theorem Bound.returns (h : Bound i w) (p : ℕ) {result : Except LoadError Identity}
    (hresult : result = .error .io ∨ ∃ j, result = .ok j ∧ j.Older i) :
    Bound i (w.returns p result) := by
  rcases hresult with rfl | ⟨j, rfl, holder⟩
  · refine h.update p { w.processes p with phase := .idle } rfl h.file (h.identities p) .idle
      (fun _ _ _ heq => by cases heq) fun result hmem => ?_
    rcases List.mem_cons.1 hmem with rfl | hmem
    · exact .inr (.inl rfl)
    · exact .inl hmem
  · refine h.update p { identity := some j } rfl h.file
      (fun j' hj => Option.some.inj hj ▸ holder) .idle (fun _ _ _ heq => by cases heq)
      fun result hmem => ?_
    rcases List.mem_cons.1 hmem with rfl | hmem
    · exact .inr (.inr ⟨j, rfl, holder.installation⟩)
    · exact .inl hmem

/-- A process that is saving goes on. -/
theorem Bound.continue (h : Bound i w) {p : ℕ} {stage : Stage} {next : Identity} {temporary : File}
    (hphase : (w.processes p).phase = .saving stage next temporary) (stage' : Stage)
    (hbound : PhaseBound i (.saving stage' next (stage'.temporary next))) :
    Bound i (w.move p (.saving stage' next (stage'.temporary next))) :=
  h.update p { w.processes p with phase := .saving stage' next (stage'.temporary next) } rfl h.file
    (h.identities p) hbound
    (fun _ _ _ heq q _ _ _ hq => by
      cases heq
      exact h.saves p q _ _ _ _ _ _ hphase hq)
    fun _ hresult => .inl hresult

/-- **A rename binds the installation that is stored.** -/
theorem Bound.rename (h : Bound i w) {p : ℕ} {next : Identity} {temporary : File}
    (hphase : (w.processes p).phase = .saving .rename next temporary)
    (hnewer : i.Older next) (hvalid : next.Valid)
    (hfile : temporary = Stage.rename.temporary next) :
    Bound next (w.saving p next temporary .rename) where
  valid := hvalid
  file := ⟨_, congrArg some hfile⟩
  identities q j := by
    simp only [World.saving, World.link, World.set]
    split_ifs
    · intro hj
      obtain rfl := Option.some.inj hj
      exact .refl _
    · exact fun hj => (h.identities q j hj).trans hnewer
  phases q := by
    simp only [World.saving, World.link, World.set]
    split_ifs
    · exact .idle
    · have hq := h.phases q
      generalize hphase' : (w.processes q).phase = phase at hq
      cases hq with
      | idle => exact .idle
      | reading => exact .reading
      | creating j => exact .creating j
      | syncing older => exact .syncing (older.trans hnewer)
      | closing older => exact .closing (older.trans hnewer)
      | saving newer valid bound =>
        -- All that are being saved have one epoch.
        exact .saving ⟨hnewer.installation.symm.trans newer.installation,
          .inr (h.saves p q _ _ _ _ _ _ hphase hphase')⟩ valid bound
  saves q r stage stage' next₁ next₂ temporary₁ temporary₂ := by
    simp only [World.saving, World.link, World.set]
    split_ifs
    · intro h
      cases h
    · intro h
      cases h
    · intro _ h
      cases h
    · exact h.saves q r _ _ _ _ _ _
  log result hresult := by
    rcases h.log result hresult with hio | ⟨j, hj, hsame⟩
    · exact .inl hio
    · exact .inr ⟨j, hj, hsame.trans hnewer.installation⟩

theorem Bound.stored (h : Bound i w) : w.stored = some i := by
  obtain ⟨synced, hfile⟩ := h.file
  rw [World.stored, hfile, Option.bind_some, h.valid.persisted_marshal]

theorem Bound.advance (h : Bound i w) (p : ℕ) (draw : Draw) :
    ∃ i', i.Older i' ∧ Bound i' (w.advance p draw) := by
  obtain ⟨synced, hfile⟩ := h.file
  have hp := h.phases p
  generalize hphase : (w.processes p).phase = phase at hp
  unfold World.advance
  cases hp with
  | idle =>
    rw [hphase]
    exact ⟨i, .refl i, h⟩
  | reading =>
    rw [hphase, hfile]
    simp only [h.valid.persisted_marshal]
    exact ⟨i, .refl i, h.returns p (.inr ⟨i, rfl, .refl i⟩)⟩
  | creating j =>
    rw [hphase, hfile]
    exact ⟨i, .refl i, h.move p .reading fun _ _ _ heq => by cases heq⟩
  | @syncing j older =>
    rw [hphase]
    refine ⟨i, .refl i, h.update p { w.processes p with phase := .closing j false } rfl
      ⟨i.marshal.length, ?_⟩ (h.identities p) (.closing older) (fun _ _ _ heq => by cases heq)
      fun _ hresult => .inl hresult⟩
    show w.file.map File.sync = _
    rw [hfile]
    rfl
  | @closing j failed older =>
    rw [hphase]
    refine ⟨i, .refl i, h.returns p ?_⟩
    cases failed with
    | false => exact .inr ⟨j, rfl, older⟩
    | true => exact .inl rfl
  | @saving stage next newer valid bound =>
    rw [hphase]
    cases stage with
    | createTemp => exact ⟨i, .refl i, h.continue hphase .chmod (.saving newer valid bound)⟩
    | chmod => exact ⟨i, .refl i, h.continue hphase .write (.saving newer valid bound)⟩
    | write => exact ⟨i, .refl i, h.continue hphase .sync (.saving newer valid bound)⟩
    | sync => exact ⟨i, .refl i, h.continue hphase .close (.saving newer valid bound)⟩
    | close => exact ⟨i, .refl i, h.continue hphase .rename (.saving newer valid bound)⟩
    | rename => exact ⟨next, newer, h.rename hphase newer valid rfl⟩

theorem Bound.fail (h : Bound i w) (p written : ℕ) : Bound i (w.fail p written) := by
  have hp := h.phases p
  generalize hphase : (w.processes p).phase = phase at hp
  unfold World.fail
  rw [hphase]
  cases hp with
  | idle => exact h
  | reading => exact h.returns p (.inl rfl)
  | creating j => exact h.returns p (.inl rfl)
  | syncing older => exact h.move p (.closing older) fun _ _ _ heq => by cases heq
  | closing older => exact h.returns p (.inl rfl)
  | saving newer valid bound => exact h.move p .idle fun _ _ _ heq => by cases heq

/-- A binding that starts is of the epoch that is stored or about to be. -/
theorem Bound.save (h : Bound i w) {p : ℕ} {epoch : Int64} (hspares : w.Spares (.save p epoch)) :
    Bound i (w.save p epoch.toInt) := by
  unfold World.save
  cases hidentity : (w.processes p).identity with
  | none => exact h
  | some j =>
    dsimp only
    have holder := h.identities p j hidentity
    split_ifs with hconflict hsame
    · exact h
    · exact h
    · obtain ⟨hpositive, hunbound⟩ := not_or.1 hconflict
      have hzero : j.bindingEpoch = 0 := by
        by_contra hne
        exact hunbound ⟨hne, hsame⟩
      obtain ⟨hstored, hothers⟩ := hspares j hidentity hzero
      let next : Identity := { j with bindingEpoch := epoch.toInt }
      refine h.update p { w.processes p with phase := .saving .createTemp next {} } rfl h.file
        (h.identities p) (.saving
          ⟨holder.installation.symm, hstored i h.stored⟩
          ⟨?_, (not_le.1 hpositive).le, ?_⟩ (not_le.1 hpositive).ne')
        (fun stage next temporary heq q stage' next' temporary' hq => ?_)
        fun _ hresult => .inl hresult
      · show j.installationId ≠ ""
        rw [holder.installation]
        exact h.valid.named
      · exact Int64.toInt_le epoch
      · cases heq
        exact (hothers q stage' next' temporary' hq).symm

/-- **One event, while an identity is stored.** -/
theorem Bound.step (h : Bound i w) (he : w.Spares e) : ∃ i', i.Older i' ∧ Bound i' (w.step e) := by
  cases e with
  | load p =>
    refine ⟨i, .refl i, ?_⟩
    simp only [World.step]
    split_ifs
    · exact h.move p .reading fun _ _ _ heq => by cases heq
    · exact h
  | save p epoch =>
    refine ⟨i, .refl i, ?_⟩
    simp only [World.step]
    split_ifs
    · exact h.save he
    · exact h
  | step p draw => exact h.advance p draw
  | fail p written => exact ⟨i, .refl i, h.fail p written⟩
  | kill p =>
    exact ⟨i, .refl i, h.update p {} rfl h.file (fun _ heq => by cases heq) .idle
      (fun _ _ _ heq => by cases heq) fun _ hresult => .inl hresult⟩
  | writeback =>
    exact ⟨i, .refl i,
      { valid := h.valid
        file := h.file
        identities := h.identities
        phases := h.phases
        saves := h.saves
        log := h.log }⟩
  | powerLoss kept undone =>
    obtain ⟨-, hentry, hsynced⟩ := he
    obtain ⟨synced, hfile⟩ := h.file
    obtain rfl : synced = i.marshal.length := hsynced _ hfile
    refine ⟨i, .refl i, ?_⟩
    exact
      { valid := h.valid
        file := by
          refine ⟨i.marshal.length, ?_⟩
          simp only [World.step, hentry, hfile, Option.map_some]
          rw [List.take_of_length_le (le_max_left _ _)]
        identities := fun _ _ heq => by cases heq
        phases := fun _ => .idle
        saves := fun _ _ _ _ _ _ _ _ heq => by cases heq
        log := h.log }

/-! ### Before one is stored -/

variable {writer : Option ℕ}

theorem PhaseFresh.mono {P Q : Prop} (hPQ : P → Q) {phase : Phase} (h : PhaseFresh P phase) :
    PhaseFresh Q phase := by
  cases h with
  | idle => exact .idle
  | reading => exact .reading
  | creating drawn => exact .creating drawn
  | writing drawn h => exact .writing drawn (hPQ h)

/-- One process moves, and does not write. -/
theorem Fresh.update (h : Fresh writer w) (p : ℕ) (process : Process)
    (hprocesses : w'.processes = (w.set p process).processes) (hfile : w'.file = w.file)
    (hidentity : process.identity = none) (hphase : PhaseFresh False process.phase)
    (hp : ∀ j, (w.processes p).phase ≠ .writing j)
    (hlog : ∀ result ∈ w'.log, result ∈ w.log ∨ result = .error .io) : Fresh writer w' where
  file := hfile.trans h.file
  identities q := by
    rw [hprocesses]
    simp only [World.set]
    split_ifs
    · exact hidentity
    · exact h.identities q
  phases q := by
    rw [hprocesses]
    simp only [World.set]
    split_ifs
    · exact hphase.mono False.elim
    · exact h.phases q
  writing q hq := by
    obtain ⟨j, hj⟩ := h.writing q hq
    refine ⟨j, ?_⟩
    rw [hprocesses]
    simp only [World.set]
    rw [if_neg (by rintro rfl; exact hp j hj)]
    exact hj
  log result hresult := by
    rcases hlog result hresult with hold | rfl
    · exact h.log result hold
    · rfl

theorem Fresh.returns (h : Fresh writer w) (p : ℕ) (hp : ∀ j, (w.processes p).phase ≠ .writing j) :
    Fresh writer (w.returns p (.error .io)) :=
  h.update p { w.processes p with phase := .idle } rfl rfl (h.identities p) .idle hp
    fun result hmem => by
      rcases List.mem_cons.1 hmem with rfl | hmem
      · exact .inr rfl
      · exact .inl hmem

theorem Fresh.move (h : Fresh writer w) (p : ℕ) {phase : Phase} (hphase : PhaseFresh False phase)
    (hp : ∀ j, (w.processes p).phase ≠ .writing j) : Fresh writer (w.move p phase) :=
  h.update p { w.processes p with phase } rfl rfl (h.identities p) hphase hp
    fun _ hmem => .inl hmem

theorem Fresh.of_not_writing (h : Fresh writer w) (hw : ¬ w.Writing) : writer = none := by
  cases writer with
  | none => rfl
  | some p =>
    obtain ⟨j, hj⟩ := h.writing p rfl
    exact absurd ⟨p, j, hj⟩ hw

/-- **The exclusive creation has one winner.** -/
theorem Fresh.create (h : Fresh none w) {p : ℕ} {j : Identity} (hj : j.Drawn) :
    Fresh (some p) ((w.move p (.writing j)).link {}) where
  file := rfl
  identities q := by
    simp only [World.link, World.move, World.set]
    split_ifs
    · exact h.identities p
    · exact h.identities q
  phases q := by
    simp only [World.link, World.move, World.set]
    split_ifs with hq
    · exact .writing hj (congrArg some hq.symm)
    · exact (h.phases q).mono fun heq => by cases heq
  writing q hq := by
    obtain rfl := Option.some.inj hq
    exact ⟨j, congrArg Process.phase (if_pos rfl)⟩
  log := h.log

/-- **The write of the winner stores its identity.** -/
theorem Fresh.write {p : ℕ} (h : Fresh (some p) w) {j : Identity} (hj : j.Drawn) :
    Bound j { w.move p (.syncing j) with file := w.file.map fun file => file.write j.marshal } where
  valid := hj.valid
  file := ⟨0, by rw [h.file]; rfl⟩
  identities q i := by
    simp only [World.move, World.set]
    split_ifs
    · rw [h.identities p]
      exact fun heq => by cases heq
    · rw [h.identities q]
      exact fun heq => by cases heq
  phases q := by
    simp only [World.move, World.set]
    split_ifs with hq
    · exact .syncing (.refl j)
    · have hphase := h.phases q
      generalize (w.processes q).phase = phase at hphase
      cases hphase with
      | idle => exact .idle
      | reading => exact .reading
      | creating drawn => exact .creating _
      | writing drawn h => exact absurd (Option.some.inj h).symm hq
  saves q r stage stage' next next' temporary temporary' := by
    -- Nobody has an identity to save.
    simp only [World.move, World.set]
    split_ifs
    · exact fun heq => by cases heq
    · exact fun heq => by cases heq
    all_goals
      intro heq
      have hphase := h.phases q
      rw [heq] at hphase
      cases hphase
  log result hresult := .inl (h.log result hresult)

theorem Fresh.advance (h : Fresh writer w) (p : ℕ) (draw : Draw)
    (hreads : (w.processes p).phase = .reading → ¬ w.Writing) : Safe (w.advance p draw) := by
  have hp := h.phases p
  generalize hphase : (w.processes p).phase = phase at hp hreads
  unfold World.advance
  cases hp with
  | idle =>
    rw [hphase]
    exact .inl ⟨writer, h⟩
  | reading =>
    obtain rfl := h.of_not_writing (hreads rfl)
    have hfile : w.file = none := h.file
    rw [hphase, hfile]
    exact .inl ⟨none, h.move p (.creating (drawn_new draw)) fun _ heq => by
      rw [hphase] at heq
      cases heq⟩
  | @creating j drawn =>
    have hfile := h.file
    rw [hphase]
    cases writer with
    | none =>
      rw [show w.file = none from hfile]
      exact .inl ⟨some p, h.create drawn⟩
    | some q =>
      rw [show w.file = some {} from hfile]
      exact .inl ⟨some q, h.move p .reading fun _ heq => by
        rw [hphase] at heq
        cases heq⟩
  | @writing j drawn hwriter =>
    obtain rfl := hwriter
    rw [hphase]
    exact .inr ⟨j, h.write drawn⟩

theorem Fresh.fail (h : Fresh writer w) (p written : ℕ)
    (hspares : ∀ i, (w.processes p).phase ≠ .writing i) : Fresh writer (w.fail p written) := by
  have hp := h.phases p
  generalize hphase : (w.processes p).phase = phase at hp
  unfold World.fail
  rw [hphase]
  cases hp with
  | idle => exact h
  | reading => exact h.returns p hspares
  | creating drawn => exact h.returns p hspares
  | writing drawn hwriter => exact absurd hphase (hspares _)

/-- **One event, before an identity is stored.** -/
theorem Fresh.step (h : Fresh writer w) (he : w.Spares e) : Safe (w.step e) := by
  cases e with
  | load p =>
    simp only [World.step]
    split_ifs with hidle
    · exact .inl ⟨writer, h.move p .reading fun _ heq => by
        rw [hidle] at heq
        cases heq⟩
    · exact .inl ⟨writer, h⟩
  | save p epoch =>
    have hsave : w.save p epoch.toInt = w := by
      simp only [World.save, h.identities p]
    simp only [World.step, hsave, ite_self]
    exact .inl ⟨writer, h⟩
  | step p draw => exact h.advance p draw he
  | fail p written => exact .inl ⟨writer, h.fail p written he⟩
  | kill p =>
    exact .inl ⟨writer, h.update p {} rfl rfl rfl .idle he fun _ hmem => .inl hmem⟩
  | writeback =>
    exact .inl ⟨writer,
      { file := h.file
        identities := h.identities
        phases := h.phases
        writing := h.writing
        log := h.log }⟩
  | powerLoss kept undone =>
    obtain ⟨hwriting, hentry, -⟩ := he
    obtain rfl := h.of_not_writing hwriting
    have hfile : w.file = none := h.file
    refine .inl ⟨none, ?_⟩
    exact
      { file := by
          simp only [World.step, hentry, hfile]
          rfl
        identities := fun _ => rfl
        phases := fun _ => .idle
        writing := fun _ heq => by cases heq
        log := h.log }

/-! ### Runs -/

theorem safe_start : Safe {} :=
  .inl ⟨none, rfl, fun _ => rfl, fun _ => .idle, fun _ heq => (by cases heq),
    fun _ hmem => (by cases hmem)⟩

theorem Safe.runs (h : Safe w) (hruns : Runs World.Spares w w') : Safe w' := by
  induction hruns with
  | refl => exact h
  | step e _ he ih =>
    rcases ih with ⟨writer, hfresh⟩ | ⟨i, hbound⟩
    · exact hfresh.step he
    · obtain ⟨i', -, hbound'⟩ := hbound.step he
      exact .inr ⟨i', hbound'⟩

theorem Bound.runs (h : Bound i w) (hruns : Runs World.Spares w w') :
    ∃ i', i.Older i' ∧ Bound i' w' := by
  induction hruns with
  | refl => exact ⟨i, .refl i, h⟩
  | step e _ he ih =>
    obtain ⟨j, holder, hbound⟩ := ih
    obtain ⟨k, holder', hbound'⟩ := hbound.step he
    exact ⟨k, holder.trans holder', hbound'⟩

/-! ## A `Load` that nothing disturbs -/

theorem Bound.loadAlone (h : Bound i w) {p : ℕ} (hidle : (w.processes p).phase = .idle)
    (draw : Draw) : (w.loadAlone p draw).log = .ok i :: w.log := by
  obtain ⟨synced, hfile⟩ := h.file
  simp only [World.loadAlone, List.foldl_cons, List.foldl_nil, World.step, if_pos hidle,
    World.advance, World.move, World.set, if_true, hfile, h.valid.persisted_marshal, World.returns]

theorem Fresh.loadAlone (h : Fresh none w) {p : ℕ} (hidle : (w.processes p).phase = .idle)
    (draw : Draw) : (w.loadAlone p draw).log = .ok (new draw) :: w.log := by
  have hfile : w.file = none := h.file
  simp only [World.loadAlone, List.foldl_cons, List.foldl_nil, World.step, if_pos hidle,
    World.advance, World.move, World.set, World.link, World.sync, if_true, hfile, Option.map_some,
    World.returns]
  rfl

theorem Fresh.stored (h : Fresh writer w) : w.stored = none := by
  rw [World.stored, h.file]
  cases writer with
  | none => rfl
  | some p => exact persisted_nil

/-- **The identity is crash safe** in the runs that spare it. Where nobody is about to write the
file a `Load` succeeds, and no `Load` has met a file that is no identity. All of them returned one
installation id. What is stored keeps it, and keeps its epoch once it has one. -/
theorem identity_crash_safe {w : World} (h : Runs World.Spares {} w) :
    (¬ w.Writing → ∀ p draw, (w.processes p).phase = .idle →
      ∃ i, (w.loadAlone p draw).log = .ok i :: w.log) ∧
    .error .invalid ∉ w.log ∧
    (∀ i j : Identity, .ok i ∈ w.log → .ok j ∈ w.log → i.installationId = j.installationId) ∧
    ∀ w', Runs World.Spares w w' → ∀ i, w.stored = some i →
      ∃ j, w'.stored = some j ∧ j.installationId = i.installationId ∧ 0 ≤ i.bindingEpoch ∧
        (i.bindingEpoch ≠ 0 → j.bindingEpoch = i.bindingEpoch) := by
  rcases safe_start.runs h with ⟨writer, hfresh⟩ | ⟨i, hbound⟩
  · refine ⟨fun hw p draw hidle => ?_, fun hmem => ?_, fun i j hi => ?_, fun w' _ i hi => ?_⟩
    · obtain rfl := hfresh.of_not_writing hw
      exact ⟨_, hfresh.loadAlone hidle draw⟩
    · cases hfresh.log _ hmem
    · cases hfresh.log _ hi
    · cases hfresh.stored.symm.trans hi
  · have hlog : ∀ j : Identity, .ok j ∈ w.log → j.installationId = i.installationId := by
      intro j hj
      rcases hbound.log _ hj with hio | ⟨j', hj', hsame⟩
      · cases hio
      · cases hj'
        exact hsame
    refine ⟨fun _ p draw hidle => ⟨i, hbound.loadAlone hidle draw⟩, fun hmem => ?_,
      fun j k hj hk => (hlog j hj).trans (hlog k hk).symm, fun w' hruns j hj => ?_⟩
    · rcases hbound.log _ hmem with hio | ⟨j, hj, -⟩
      · cases hio
      · cases hj
    · obtain rfl := Option.some.inj (hbound.stored.symm.trans hj)
      obtain ⟨k, holder, hbound'⟩ := hbound.runs hruns
      exact ⟨k, hbound'.stored, holder.installation.symm, hbound.valid.nonneg,
        fun hne => (holder.epoch.resolve_left hne).symm⟩

end Steps

/-! ## First starts -/

section FirstStarts

variable {w w' : World}

/-- The events of a run all have a property. -/
def Along (P : World → Event → Prop) (w : World) : List Event → Prop
  | [] => True
  | e :: es => P w e ∧ Along P (w.step e) es

theorem runs_foldl {P : World → Event → Prop} (w₀ : World) {w : World} {es : List Event}
    (h : Runs P w₀ w) (hes : Along P w es) : Runs P w₀ (es.foldl World.step w) := by
  induction es generalizing w with
  | nil => exact h
  | cons e es ih => exact ih (h.step e hes.1) hes.2

def exampleDraw : Draw := ⟨List.replicate 24 0, List.length_replicate⟩

/-- A process starts for the first time. -/
def started : World := World.loadAlone {} 0 exampleDraw

theorem started_file : started.file =
    some ⟨(new exampleDraw).marshal, (new exampleDraw).marshal.length⟩ := rfl

theorem started_processes (q : ℕ) :
    started.processes q = if q = 0 then { identity := some (new exampleDraw) } else {} := by
  by_cases hq : q = 0
  · subst hq
    rfl
  · simp [started, World.loadAlone, World.step, World.advance, World.move, World.set, World.link,
      World.sync, World.returns, hq]

/-- It binds the installation. -/
def binding : World := started.step (.save 0 7)

theorem binding_processes (q : ℕ) : binding.processes q =
    if q = 0 then ⟨.saving .createTemp { new exampleDraw with bindingEpoch := 7 } {},
      some (new exampleDraw)⟩ else {} := by
  have hmove : binding =
      started.move 0 (.saving .createTemp { new exampleDraw with bindingEpoch := 7 } {}) := rfl
  rw [hmove]
  simp only [World.move, World.set, started_processes, if_true]
  split_ifs
  · rfl
  · rfl

theorem binding_runs : Runs World.Spares {} binding := by
  have hstarted : Runs World.Spares {} started := by
    refine runs_foldl {} .refl ⟨trivial, fun _ => ?_, fun h => ?_, fun h => ?_, fun h => ?_,
      fun h => ?_, trivial⟩
    · rintro ⟨p, i, hphase⟩
      by_cases hp : p = 0
      · subst hp
        cases hphase
      · simp [World.step, World.move, World.set, hp] at hphase
    · cases h
    · cases h
    · cases h
    · cases h
  refine hstarted.step (.save 0 7) fun i _ _ => ⟨fun j hj => .inl ?_, fun q _ _ _ hq => ?_⟩
  · have hread : started.stored = some (new exampleDraw) := by
      rw [World.stored, started_file, Option.bind_some,
        (drawn_new exampleDraw).valid.persisted_marshal]
    obtain rfl := Option.some.inj (hread.symm.trans hj)
    rfl
  · rw [started_processes] at hq
    split_ifs at hq

/-- Somebody who starts then finds the identity. -/
theorem binding_loads :
    ∃ i, (binding.loadAlone 1 exampleDraw).log = .ok i :: binding.log := by
  refine (identity_crash_safe binding_runs).1 ?_ 1 exampleDraw ?_
  · rintro ⟨p, i, hphase⟩
    rw [binding_processes] at hphase
    split_ifs at hphase
  · rw [binding_processes]
    rfl

/-- An event of any kind. -/
def Any (_ : World) (_ : Event) : Prop := True

/-- Nobody can read `identity.json`, and nobody is going to write it. -/
structure Lost (w : World) : Prop where
  file : w.file = some {}
  older : w.older = []
  processes : ∀ p, w.processes p = {} ∨ w.processes p = ⟨.reading, none⟩
  log : ∀ i : Identity, .ok i ∉ w.log

theorem Lost.set (h : Lost w) (p : ℕ) (process : Process)
    (hprocess : process = {} ∨ process = ⟨.reading, none⟩) : Lost (w.set p process) where
  file := h.file
  older := h.older
  processes q := by
    simp only [World.set]
    split_ifs
    · exact hprocess
    · exact h.processes q
  log := h.log

theorem Lost.returns (h : Lost w) {p : ℕ} (hp : w.processes p = ⟨.reading, none⟩) (e : LoadError) :
    Lost (w.returns p (.error e)) where
  file := h.file
  older := h.older
  processes := (h.set p { w.processes p with phase := .idle }
    (.inl (by rw [hp]))).processes
  log i hmem := by
    rcases List.mem_cons.1 hmem with heq | hmem
    · cases heq
    · exact h.log i hmem

/-- **There is no way back**, whatever happens. -/
theorem Lost.step (h : Lost w) (e : Event) : Lost (w.step e) := by
  cases e with
  | load p =>
    simp only [World.step]
    split_ifs with hidle
    · refine h.set p _ (.inr ?_)
      rcases h.processes p with hp | hp <;> rw [hp]
    · exact h
  | save p epoch =>
    have hnone : (w.processes p).identity = none := by
      rcases h.processes p with hp | hp <;> rw [hp]
    simp only [World.step, World.save, hnone, ite_self]
    exact h
  | step p draw =>
    rcases h.processes p with hp | hp
    · simpa only [World.step, World.advance, hp] using h
    · simpa only [World.step, World.advance, hp, h.file, persisted_nil] using h.returns hp .invalid
  | fail p written =>
    rcases h.processes p with hp | hp
    · simpa only [World.step, World.fail, hp] using h
    · simpa only [World.step, World.fail, hp] using h.returns hp .io
  | kill p => exact h.set p {} (.inl rfl)
  | writeback =>
    exact
      { file := h.file
        older := rfl
        processes := h.processes
        log := h.log }
  | powerLoss kept undone =>
    have hentry : w.entry undone = some {} := by
      cases undone with
      | zero => exact h.file
      | succ n => simp only [World.entry, h.older, List.getD_nil, h.file]
    exact
      { file := by
          simp only [World.step, hentry, Option.map_some, List.take_nil]
          rfl
        older := rfl
        processes := fun _ => .inl rfl
        log := h.log }

theorem Lost.runs (h : Lost w) (hruns : Runs Any w w') : Lost w' := by
  induction hruns with
  | refl => exact h
  | step e _ _ ih => exact ih.step e

/-- A process dies between the creation and the write, and the empty file reaches the disk. -/
def crashed : World :=
  [Event.load 0, .step 0 exampleDraw, .step 0 exampleDraw, .kill 0, .writeback].foldl World.step {}

theorem crashed_lost : Lost crashed where
  file := rfl
  older := rfl
  processes q := by
    by_cases hq : q = 0
    · subst hq
      exact .inl rfl
    · refine .inl ?_
      simp [crashed, World.step, World.advance, World.move, World.set, World.link, hq]
  log i hmem := by cases hmem

/-- Two processes have read an identity without epoch, and bind it to different ones. -/
def bindings : List Event :=
  [Event.load 0] ++ List.replicate 5 (.step 0 exampleDraw) ++ [.load 1, .step 1 exampleDraw] ++
    [.save 0 5] ++ List.replicate 6 (.step 0 exampleDraw)

def rebindings : List Event := .save 1 7 :: List.replicate 6 (.step 1 exampleDraw)

/-- The only process has bound the installation. -/
def bound : World := (List.replicate 6 (.step 0 exampleDraw)).foldl World.step binding

theorem bound_runs : Runs World.Spares {} bound :=
  runs_foldl {} binding_runs ⟨fun h => (by cases h), fun h => (by cases h), fun h => (by cases h),
    fun h => (by cases h), fun h => (by cases h), fun h => (by cases h), trivial⟩

theorem along_any (w : World) (es : List Event) : Along Any w es := by
  induction es generalizing w with
  | nil => trivial
  | cons e es ih => exact ⟨trivial, ih _⟩

/-- **A first start that is cut off is the last one**, an epoch that is stored is replaced, and
after a run that spares the identity a power loss undoes the rename that has stored an epoch. -/
theorem identity_not_crash_safe :
    (∃ w, Runs Any {} w ∧ (∀ p, w.processes p = {}) ∧
      ∀ w', Runs Any w w' → ∀ i : Identity, .ok i ∉ w'.log) ∧
    (∃ w w' i j, Runs Any {} w ∧ Runs Any w w' ∧ w.stored = some i ∧ w'.stored = some j ∧
      0 < i.bindingEpoch ∧ i.bindingEpoch ≠ j.bindingEpoch) ∧
    ∃ w i j, Runs World.Spares {} w ∧ w.stored = some i ∧
      (w.step (.powerLoss 0 1)).stored = some j ∧ 0 < i.bindingEpoch ∧ j.bindingEpoch = 0 := by
  refine ⟨⟨crashed, runs_foldl {} .refl (along_any _ _), fun p => ?_,
    fun w' hruns => (crashed_lost.runs hruns).log⟩, ?_, ?_⟩
  · by_cases hp : p = 0
    · subst hp
      rfl
    · simp [crashed, World.step, World.advance, World.move, World.set, World.link, hp]
  · have hbind : (bindings.foldl World.step {}).stored =
        some { new exampleDraw with bindingEpoch := 5 } := by decide +kernel
    have hrebind : (rebindings.foldl World.step (bindings.foldl World.step {})).stored =
        some { new exampleDraw with bindingEpoch := 7 } := by decide +kernel
    exact ⟨_, _, _, _, runs_foldl {} .refl (along_any _ _), runs_foldl _ .refl (along_any _ _),
      hbind, hrebind, by decide, by decide⟩
  · have hbound : bound.stored = some { new exampleDraw with bindingEpoch := 7 } := by
      decide +kernel
    have hundone : (bound.step (.powerLoss 0 1)).stored = some (new exampleDraw) := by
      decide +kernel
    exact ⟨bound, _, _, bound_runs, hbound, hundone, by decide, rfl⟩

end FirstStarts

end Identity

end Bifurcation.Daemon
