import Bifurcation.Daemon.UsageSpec

/-!
# Byte conservation of metering

The history of one user in one stream is the list of that user's samples in the calls of
`RecordSample` that succeeded, each with the cursor it was compared with. `Metered` says how
such a history arises, one sample at a time; everything about bytes, gaps and overlaps is proved
by induction on it. A run of the store then yields a `Metered` history for every stream and user.
-/

namespace Bifurcation.Daemon

/-! ## Histories of one user -/

/-- A sample of a call that succeeded, with the cursor it was compared with. -/
structure Sample where
  streamID : String
  counter : Counter
  previous : Option CursorRow
deriving DecidableEq

/-- The deltas a sample gives rise to. -/
def Sample.deltas (x : Sample) : List Delta :=
  match meterCounter x.previous x.counter with
  | .ok (some ds) => ds
  | _ => []

/-- The histories of one user, with the cursor each leaves. -/
inductive Metered : List Sample → Option CursorRow → Prop
  | nil : Metered [] none
  | snoc {xs : List Sample} {x : Sample} {r : Option (List Delta)} :
      Metered xs x.previous → 0 ≤ x.counter.startedAt →
      meterCounter x.previous x.counter = .ok r →
      Metered (xs ++ [x]) (if r.isSome then some (cursorOf x.counter) else x.previous)

/-- The samples that were recorded: all but the stale ones. -/
def recorded (xs : List Sample) : List Counter :=
  (xs.filter fun x => ¬ stale x.previous x.counter).map (·.counter)

inductive Direction where
  | upload
  | download

namespace Direction

def counter : Direction → Counter → Int
  | upload, c => c.upload
  | download, c => c.download

def delta : Direction → Delta → Int
  | upload, d => d.upload
  | download, d => d.download

def usage : Direction → UsageDelta → Int
  | upload, d => d.uploadBytes
  | download, d => d.downloadBytes

end Direction

/-- Where the counters of a runtime start: at zero if the runtime was started by the daemon, at
the first sample if it was adopted. -/
def base (dir : Direction) (first : Counter) : Int :=
  if first.startedAt > 0 then 0 else dir.counter first

/-- The last recorded counter of a runtime minus its base. -/
def runtimeBytes (dir : Direction) (cs : List Counter) (runtimeID : String) : Int :=
  match cs.filter (·.runtimeID = runtimeID) with
  | [] => 0
  | first :: rest => dir.counter (rest.getLast?.getD first) - base dir first

/-- The bytes of all runtimes. -/
def meteredBytes (dir : Direction) (cs : List Counter) : Int :=
  ∑ r ∈ (cs.map (·.runtimeID)).toFinset, runtimeBytes dir cs r

/-- Once a new runtime has been sampled, no earlier one comes back. -/
def Grouped (runtimes : List String) : Prop :=
  ∀ a b c, [a, b, c].Sublist runtimes → a ≠ b → c ≠ a

/-- Every new runtime starts at or after the previous observation. -/
def StartsAfter (xs : List Sample) : Prop :=
  ∀ x ∈ xs, ∀ o, x.previous = some o → o.runtimeID ≠ x.counter.runtimeID →
    x.counter.startedAt = 0 ∨ o.observedAt ≤ x.counter.startedAt

/-! ## The cursor -/

theorem recorded_snoc (xs : List Sample) (x : Sample) :
    recorded (xs ++ [x]) =
      recorded xs ++ if stale x.previous x.counter then [] else [x.counter] := by
  by_cases h : stale x.previous x.counter <;> simp [recorded, List.filter_append, h]

/-- The cursor is the last recorded counter. -/
theorem Metered.cursor_eq {xs : List Sample} {cur : Option CursorRow} (h : Metered xs cur) :
    cur = (recorded xs).getLast?.map cursorOf := by
  induction h with
  | nil => rfl
  | @snoc xs x r hxs _ hr ih =>
    have hsome := isSome_iff_not_stale hr
    by_cases hst : stale x.previous x.counter
    · have : ¬ r.isSome := fun h => hsome.1 h hst
      rw [recorded_snoc, if_pos hst, if_neg this, List.append_nil, ih]
    · simp [recorded_snoc, hst, hsome.2 hst]

theorem recorded_sublist (xs : List Sample) : (recorded xs).Sublist (xs.map (·.counter)) :=
  List.filter_sublist.map _

/-! ## Conservation -/

theorem sum_managedInitialDelta {c : Counter} {incomplete : Bool} {ds : List Delta}
    (hstart : 0 ≤ c.startedAt) (h : managedInitialDelta c incomplete = .ok ds) (dir : Direction) :
    (ds.map dir.delta).sum = dir.counter c - base dir c := by
  unfold base
  rcases managedInitialDelta_cases h with ⟨hzero, rfl⟩ | ⟨hne, -, -, rfl⟩
  · rcases hzero with h0 | ⟨hup, hdown⟩
    · simp [h0]
    · cases dir <;> simp [Direction.counter, hup, hdown]
  · have hpos : 0 < c.startedAt := lt_of_le_of_ne hstart (Ne.symm hne)
    cases dir <;> simp [Direction.counter, Direction.delta, hpos]

theorem sum_gapOf (old : Option CursorRow) (c : Counter) (dir : Direction) :
    ((gapOf old c).map dir.delta).sum = 0 := by
  cases old with
  | none => rfl
  | some o =>
    simp only [gapOf]
    split_ifs <;> cases dir <;> rfl

theorem runtimeBytes_snoc_of_ne (dir : Direction) (cs : List Counter) (c : Counter) {r : String}
    (h : r ≠ c.runtimeID) : runtimeBytes dir (cs ++ [c]) r = runtimeBytes dir cs r := by
  simp [runtimeBytes, List.filter_append, Ne.symm h]

theorem runtimeBytes_snoc_of_notMem (dir : Direction) {cs : List Counter} {c : Counter}
    (h : c.runtimeID ∉ cs.map (·.runtimeID)) :
    runtimeBytes dir (cs ++ [c]) c.runtimeID = dir.counter c - base dir c := by
  have hnil : cs.filter (·.runtimeID = c.runtimeID) = [] := by
    rw [List.filter_eq_nil_iff]
    intro d hd heq
    exact h (List.mem_map.2 ⟨d, hd, of_decide_eq_true heq⟩)
  simp [runtimeBytes, List.filter_append, hnil]

/-- A further counter of the running runtime moves its bytes by the difference to the last one. -/
theorem runtimeBytes_snoc_last (dir : Direction) (cs : List Counter) (d c : Counter)
    (h : d.runtimeID = c.runtimeID) :
    runtimeBytes dir (cs ++ [d] ++ [c]) c.runtimeID =
      runtimeBytes dir (cs ++ [d]) c.runtimeID + (dir.counter c - dir.counter d) := by
  simp only [runtimeBytes, List.filter_append, h, decide_true, List.filter_cons_of_pos,
    List.filter_nil]
  cases cs.filter (·.runtimeID = c.runtimeID) with
  | nil => simp
  | cons first rest => simp

theorem runtimes_snoc (cs : List Counter) (c : Counter) :
    ((cs ++ [c]).map (·.runtimeID)).toFinset =
      insert c.runtimeID (cs.map (·.runtimeID)).toFinset := by
  ext r; simp

/-- The bytes of a new runtime are added to those of the others. -/
theorem meteredBytes_snoc_of_notMem (dir : Direction) {cs : List Counter} {c : Counter}
    (h : c.runtimeID ∉ cs.map (·.runtimeID)) :
    meteredBytes dir (cs ++ [c]) = meteredBytes dir cs + (dir.counter c - base dir c) := by
  have hnot : c.runtimeID ∉ (cs.map (·.runtimeID)).toFinset := by simpa using h
  unfold meteredBytes
  rw [runtimes_snoc, Finset.sum_insert hnot, runtimeBytes_snoc_of_notMem dir h, add_comm]
  congr 1
  refine Finset.sum_congr rfl fun r hr => runtimeBytes_snoc_of_ne dir cs c ?_
  rintro rfl
  exact hnot hr

theorem meteredBytes_snoc_last (dir : Direction) (cs : List Counter) (d c : Counter)
    (h : d.runtimeID = c.runtimeID) :
    meteredBytes dir (cs ++ [d] ++ [c]) =
      meteredBytes dir (cs ++ [d]) + (dir.counter c - dir.counter d) := by
  have hmem : c.runtimeID ∈ ((cs ++ [d]).map (·.runtimeID)).toFinset := by simp [h]
  unfold meteredBytes
  rw [runtimes_snoc, Finset.insert_eq_of_mem hmem, ← Finset.add_sum_erase _ _ hmem,
    ← Finset.add_sum_erase _ _ hmem, runtimeBytes_snoc_last dir cs d c h, add_right_comm]
  congr 2
  refine Finset.sum_congr rfl fun r hr => runtimeBytes_snoc_of_ne dir (cs ++ [d]) c ?_
  exact (Finset.mem_erase.1 hr).1

/-- In a grouped history a runtime other than the last one sampled is new. -/
theorem Grouped.notMem {cs : List String} {d c : String} (h : Grouped (cs ++ [d] ++ [c]))
    (hne : d ≠ c) : c ∉ cs ++ [d] := by
  simp only [List.mem_append, List.mem_singleton, not_or]
  refine ⟨fun hmem => ?_, Ne.symm hne⟩
  have hsub : [c, d, c].Sublist (cs ++ [d] ++ [c]) := by
    have := (List.singleton_sublist.2 hmem).append (List.Sublist.refl [d, c])
    simpa using this
  exact h c d c hsub (Ne.symm hne) rfl

theorem Grouped.of_sublist {l l' : List String} (h : Grouped l) (hsub : l'.Sublist l) :
    Grouped l' := fun a b c hs => h a b c (hs.trans hsub)

theorem Grouped.recorded {xs : List Sample} (h : Grouped (xs.map (·.counter.runtimeID))) :
    Grouped ((recorded xs).map (·.runtimeID)) := by
  refine h.of_sublist ?_
  simpa [List.map_map, Function.comp_def] using (recorded_sublist xs).map (·.runtimeID)

theorem Sample.deltas_of_ok {x : Sample} {r : Option (List Delta)}
    (h : meterCounter x.previous x.counter = .ok r) : x.deltas = r.getD [] := by
  unfold Sample.deltas
  rw [h]
  cases r <;> rfl

/-- The deltas of a history carry the bytes of its runtimes. -/
theorem Metered.sum_deltas {xs : List Sample} {cur : Option CursorRow} (h : Metered xs cur)
    (hgrouped : Grouped (xs.map (·.counter.runtimeID))) (dir : Direction) :
    ((xs.flatMap Sample.deltas).map dir.delta).sum = meteredBytes dir (recorded xs) := by
  induction h with
  | nil => rfl
  | @snoc xs x r hxs hstart hr ih =>
    have hprefix : Grouped (xs.map (·.counter.runtimeID)) :=
      hgrouped.of_sublist (by simp)
    have hrec := hgrouped.recorded
    have hcur := hxs.cursor_eq
    simp only [List.flatMap_append, List.map_append, List.sum_append, ih hprefix,
      List.flatMap_singleton, Sample.deltas_of_ok hr]
    rw [recorded_snoc] at hrec ⊢
    rcases meterCounter_cases hr with ⟨hnone, first, rfl, hfirst⟩ | ⟨hst, rfl⟩ |
      ⟨o, ho, hst, hrun, -, -, -, hsame⟩ | ⟨o, first, _, ho, hne, -, hfirst, rfl⟩
    · -- the user's first sample in the stream
      have hnil : Daemon.recorded xs = [] := by simpa [hnone] using hcur
      have hst : ¬ stale x.previous x.counter := by simp [stale, hnone]
      rw [hnil, if_neg hst, meteredBytes_snoc_of_notMem dir (by simp),
        ← sum_managedInitialDelta hstart hfirst dir]
      rfl
    · simp [hst]
    · -- a further sample of the running runtime
      obtain ⟨d, hd, rfl⟩ : ∃ d, (Daemon.recorded xs).getLast? = some d ∧ cursorOf d = o := by
        simpa [ho, eq_comm] using hcur
      obtain ⟨cs, hcs⟩ := List.getLast?_eq_some_iff.1 hd
      rw [if_neg hst, hcs, meteredBytes_snoc_last dir cs d x.counter hrun]
      congr 1
      rcases hsame with ⟨hup, hdown, rfl⟩ | ⟨-, -, rfl⟩
      · cases dir <;> simp_all [Direction.counter, cursorOf]
      · cases dir <;> simp [Direction.counter, Direction.delta, cursorOf]
    · -- a new runtime
      have hst : ¬ stale x.previous x.counter := by
        rintro ⟨o', ho', -, heq, -⟩
        obtain rfl : o = o' := by simpa [ho] using ho'
        exact hne heq
      obtain ⟨d, hd, rfl⟩ : ∃ d, (Daemon.recorded xs).getLast? = some d ∧ cursorOf d = o := by
        simpa [ho, eq_comm] using hcur
      obtain ⟨cs, hcs⟩ := List.getLast?_eq_some_iff.1 hd
      rw [if_neg hst, hcs] at hrec ⊢
      have hnew : x.counter.runtimeID ∉ (cs ++ [d]).map (·.runtimeID) := by
        simp only [List.map_append, List.map_cons, List.map_nil] at hrec ⊢
        exact hrec.notMem hne
      rw [meteredBytes_snoc_of_notMem dir hnew]
      simp only [Option.getD_some, List.map_append, List.sum_append, sum_gapOf, zero_add,
        sum_managedInitialDelta hstart hfirst dir]

/-! ## Gaps, stale samples and overlaps -/

def Delta.carries (d : Delta) : Prop := d.upload ≠ 0 ∨ d.download ≠ 0

instance (d : Delta) : Decidable d.carries := by unfold Delta.carries; infer_instance

theorem not_carries_of_mem_gapOf {old : Option CursorRow} {c : Counter} {d : Delta}
    (h : d ∈ gapOf old c) : ¬ d.carries := by
  cases old with
  | none => simp [gapOf] at h
  | some o =>
    simp only [gapOf] at h
    split_ifs at h
    · obtain rfl := List.mem_singleton.1 h; simp [Delta.carries, gapDelta]
    · simp at h

theorem carries_of_mem_managedInitialDelta {c : Counter} {incomplete : Bool} {ds : List Delta}
    (h : managedInitialDelta c incomplete = .ok ds) {d : Delta} (hd : d ∈ ds) : d.carries := by
  rcases managedInitialDelta_cases h with ⟨-, rfl⟩ | ⟨-, hbytes, -, rfl⟩
  · simp at hd
  · obtain rfl := List.mem_singleton.1 hd; exact hbytes

/-- The deltas of a sample without bytes are the gap before a runtime that replaces one that was
never closed. -/
theorem zero_deltas_of_ok {old : Option CursorRow} {c : Counter} {r : Option (List Delta)}
    (h : meterCounter old c = .ok r) :
    (r.getD []).filter (fun d => ¬ d.carries) = gapOf old c := by
  have hgap : (gapOf old c).filter (fun d => ¬ d.carries) = gapOf old c :=
    List.filter_eq_self.2 fun d hd => by simpa using not_carries_of_mem_gapOf hd
  have hfirst {incomplete : Bool} {first : List Delta}
      (h : managedInitialDelta c incomplete = .ok first) :
      first.filter (fun d => ¬ d.carries) = [] :=
    List.filter_eq_nil_iff.2 fun d hd => by simpa using carries_of_mem_managedInitialDelta h hd
  rcases meterCounter_cases h with ⟨rfl, first, rfl, hf⟩ | ⟨⟨o, ho, -, hrun, -⟩, rfl⟩ |
    ⟨o, rfl, -, hrun, -, -, -, hsame⟩ | ⟨o, first, _, ho, hne, -, hf, rfl⟩
  · simpa [gapOf] using hfirst hf
  · obtain rfl : old = some o := by simpa using ho
    simp [gapOf, hrun]
  · rcases hsame with ⟨-, -, rfl⟩ | ⟨hbytes, -, rfl⟩
    · simp [gapOf, hrun]
    · have : Delta.carries { userID := c.userID, start := o.observedAt, end_ := c.observedAt
                             upload := c.upload - o.upload, download := c.download - o.download
                             incomplete := false
                             estimated := decide (c.observedAt - o.observedAt > 10000) } := hbytes
      simp [gapOf, hrun, this]
  · simp only [Option.getD_some, List.filter_append, hgap, hfirst hf, List.append_nil]

/-- What every delta of a sample satisfies. -/
theorem of_mem_deltas {old : Option CursorRow} {c : Counter} {r : Option (List Delta)}
    (h : meterCounter old c = .ok r) {d : Delta} (hd : d ∈ r.getD []) :
    d.userID = c.userID ∧ d.start < d.end_ := by
  have hgap : ∀ d ∈ gapOf old c, d.userID = c.userID ∧ d.start < d.end_ := by
    intro d hd
    cases old with
    | none => simp [gapOf] at hd
    | some o =>
      simp only [gapOf] at hd
      split_ifs at hd with hg
      · obtain rfl := List.mem_singleton.1 hd
        exact ⟨rfl, hg.2.2⟩
      · simp at hd
  have hfirst {incomplete : Bool} {first : List Delta}
      (hf : managedInitialDelta c incomplete = .ok first) :
      ∀ d ∈ first, d.userID = c.userID ∧ d.start < d.end_ := by
    intro d hd
    rcases managedInitialDelta_cases hf with ⟨-, rfl⟩ | ⟨-, -, hlt, rfl⟩
    · simp at hd
    · obtain rfl := List.mem_singleton.1 hd; exact ⟨rfl, hlt⟩
  rcases meterCounter_cases h with ⟨rfl, first, rfl, hf⟩ | ⟨-, rfl⟩ |
    ⟨o, rfl, -, -, -, -, -, hsame⟩ | ⟨o, first, _, ho, -, -, hf, rfl⟩
  · exact hfirst hf d hd
  · simp at hd
  · rcases hsame with ⟨-, -, rfl⟩ | ⟨-, hlt, rfl⟩
    · simp at hd
    · obtain rfl := List.mem_singleton.1 hd; exact ⟨rfl, hlt⟩
  · rcases List.mem_append.1 hd with hd | hd
    · exact hgap d hd
    · exact hfirst hf d hd

/-- A sample gives at most one delta with bytes. It ends at the observation, and starts no
earlier than the cursor if a new runtime starts no earlier than the cursor. -/
theorem carrying_deltas {old : Option CursorRow} {c : Counter} {r : Option (List Delta)}
    (h : meterCounter old c = .ok r)
    (hstart : ∀ o, old = some o → o.runtimeID ≠ c.runtimeID →
      c.startedAt = 0 ∨ o.observedAt ≤ c.startedAt) :
    (r.getD []).filter (fun d => d.carries) = [] ∨
      ∃ d, (r.getD []).filter (fun d => d.carries) = [d] ∧ r.isSome ∧ d.end_ = c.observedAt ∧
        ∀ o, old = some o → o.observedAt ≤ d.start := by
  have hgap : (gapOf old c).filter (fun d => d.carries) = [] :=
    List.filter_eq_nil_iff.2 fun d hd => by simpa using not_carries_of_mem_gapOf hd
  have hfirst {incomplete : Bool} {first : List Delta}
      (hf : managedInitialDelta c incomplete = .ok first) :
      first = [] ∨ ∃ d, first = [d] ∧ d.carries ∧ d.end_ = c.observedAt ∧
        c.startedAt ≠ 0 ∧ d.start = c.startedAt := by
    rcases managedInitialDelta_cases hf with ⟨-, rfl⟩ | ⟨hne, hbytes, -, rfl⟩
    · exact .inl rfl
    · exact .inr ⟨_, rfl, hbytes, rfl, hne, rfl⟩
  rcases meterCounter_cases h with ⟨rfl, first, rfl, hf⟩ | ⟨-, rfl⟩ |
    ⟨o, rfl, -, -, -, -, -, hsame⟩ | ⟨o, first, _, ho, hne, -, hf, rfl⟩
  · rcases hfirst hf with rfl | ⟨d, rfl, hd, hend, -⟩
    · exact .inl rfl
    · exact .inr ⟨d, by simp [hd], rfl, hend, by simp⟩
  · exact .inl rfl
  · rcases hsame with ⟨-, -, rfl⟩ | ⟨hbytes, -, rfl⟩
    · exact .inl rfl
    · refine .inr ⟨_, List.filter_cons_of_pos ?_, rfl, rfl, ?_⟩
      · exact decide_eq_true (show Delta.carries _ from hbytes)
      · rintro _ ⟨⟩; exact le_refl _
  · simp only [Option.getD_some, List.filter_append, hgap, List.nil_append, Option.isSome_some]
    rcases hfirst hf with rfl | ⟨d, rfl, hd, hend, hne0, hs⟩
    · exact .inl rfl
    · refine .inr ⟨d, by simp [hd], trivial, hend, fun o' ho' => ?_⟩
      obtain rfl : o = o' := by simpa [ho] using ho'
      rcases hstart o ho hne with h0 | hle
      · exact absurd h0 hne0
      · rw [hs]; exact hle

/-- What a history has written. -/
def writtenBy (xs : List Sample) : List UsageDelta := (xs.flatMap Sample.deltas).flatMap pieces

theorem carries_of_mem_pieces {d : Delta} {p : UsageDelta} (h : p ∈ pieces d) (hp : p.carries) :
    d.carries := by
  by_contra hd
  simp only [Delta.carries, not_or, not_not] at hd
  obtain ⟨hup, hdown, -⟩ := mem_piecesFrom_of_zero hd.1 hd.2 h
  exact hp.elim (fun h => h hup) (fun h => h hdown)

/-- Only the deltas with bytes are cut into pieces with bytes. -/
theorem filter_flatMap_pieces (ds : List Delta) :
    (ds.flatMap pieces).filter (fun p => p.carries) =
      ((ds.filter fun d => d.carries).flatMap pieces).filter (fun p => p.carries) := by
  induction ds with
  | nil => rfl
  | cons d ds ih =>
    by_cases hd : d.carries
    · simp [hd, List.filter_append, ih]
    · have hnil : (pieces d).filter (fun p => p.carries) = [] :=
        List.filter_eq_nil_iff.2 fun p hp => by
          simpa using fun hc => hd (carries_of_mem_pieces hp hc)
      simp [hd, List.filter_append, hnil, ih]

theorem Metered.bytes_ordered {xs : List Sample} {cur : Option CursorRow} (h : Metered xs cur)
    (hstarts : StartsAfter xs) :
    (((writtenBy xs).filter fun p => p.carries).Pairwise fun p q => p.endUnixMs ≤ q.startUnixMs) ∧
      ∀ p ∈ (writtenBy xs).filter (fun p => p.carries),
        ∃ o, cur = some o ∧ p.endUnixMs ≤ o.observedAt := by
  induction h with
  | nil => simp [writtenBy]
  | @snoc xs x r hxs _ hr ih =>
    obtain ⟨hpair, hbound⟩ := ih fun y hy => hstarts y (List.mem_append_left _ hy)
    have hx := hstarts x (by simp)
    -- the cursor never moves back
    have hmono : ∀ o, x.previous = some o →
        ∃ o', (if r.isSome then some (cursorOf x.counter) else x.previous) = some o' ∧
          o.observedAt ≤ o'.observedAt := by
      intro o ho
      rcases meterCounter_cases hr with ⟨hnone, -⟩ | ⟨-, rfl⟩ |
        ⟨o', ho', -, -, hle, -, -, hsame⟩ | ⟨o', first, _, ho', -, hle, -, rfl⟩
      · simp [hnone] at ho
      · exact ⟨o, ho, le_refl _⟩
      · obtain rfl : o' = o := by simpa [ho] using ho'.symm
        rcases hsame with ⟨-, -, rfl⟩ | ⟨-, -, rfl⟩ <;> exact ⟨_, rfl, hle⟩
      · obtain rfl : o' = o := by simpa [ho] using ho'.symm
        exact ⟨_, rfl, hle⟩
    have hwritten : (writtenBy (xs ++ [x])).filter (fun p => p.carries) =
        (writtenBy xs).filter (fun p => p.carries) ++
          (((r.getD []).filter fun d => d.carries).flatMap pieces).filter (fun p => p.carries) := by
      rw [← filter_flatMap_pieces]
      simp [writtenBy, Sample.deltas_of_ok hr, List.filter_append]
    rw [hwritten]
    rcases carrying_deltas hr hx with hnil | ⟨d, hd, hsome, hend, hstart⟩
    · rw [hnil]
      simp only [List.flatMap_nil, List.filter_nil, List.append_nil]
      refine ⟨hpair, fun p hp => ?_⟩
      obtain ⟨o, ho, hle⟩ := hbound p hp
      obtain ⟨o', ho', hle'⟩ := hmono o ho
      exact ⟨o', ho', le_trans hle hle'⟩
    · rw [hd, List.flatMap_singleton]
      refine ⟨List.pairwise_append.2 ⟨hpair, (pieces_ordered d).sublist List.filter_sublist, ?_⟩, ?_⟩
      · intro p hp q hq
        obtain ⟨o, ho, hle⟩ := hbound p hp
        exact le_trans hle (le_trans (hstart o ho) (mem_pieces (List.mem_of_mem_filter hq)).2.1)
      · intro p hp
        rcases List.mem_append.1 hp with hp | hp
        · obtain ⟨o, ho, hle⟩ := hbound p hp
          obtain ⟨o', ho', hle'⟩ := hmono o ho
          exact ⟨o', ho', le_trans hle hle'⟩
        · refine ⟨cursorOf x.counter, by simp [hsome], ?_⟩
          have := (mem_pieces (List.mem_of_mem_filter hp)).2.2.2.1
          rwa [hend] at this

/-- What a history has written carries the bytes of its runtimes. -/
theorem Metered.sum_written {xs : List Sample} {cur : Option CursorRow} (h : Metered xs cur)
    (hgrouped : Grouped (xs.map (·.counter.runtimeID))) (dir : Direction) :
    ((writtenBy xs).map dir.usage).sum = meteredBytes dir (recorded xs) := by
  rw [← h.sum_deltas hgrouped dir]
  have hlt : ∀ d ∈ xs.flatMap Sample.deltas, d.start < d.end_ := by
    clear hgrouped
    induction h with
    | nil => simp
    | @snoc xs x r _ _ hr ih =>
      intro d hd
      rw [List.flatMap_append, List.mem_append, List.flatMap_singleton,
        Sample.deltas_of_ok hr] at hd
      exact hd.elim (ih d) fun hd => (of_mem_deltas hr hd).2
  unfold writtenBy
  generalize xs.flatMap Sample.deltas = ds at hlt
  induction ds with
  | nil => rfl
  | cons d ds ih =>
    have hd := sum_pieces (hlt d (by simp))
    have hpieces : ((pieces d).map dir.usage).sum = dir.delta d := by
      cases dir
      · exact hd.1
      · exact hd.2
    rw [List.flatMap_cons, List.map_append, List.sum_append,
      ih fun e he => hlt e (List.mem_cons_of_mem d he), hpieces, List.map_cons, List.sum_cons]

/-! ## Runs of the store -/

/-- What can happen to the usage tables. -/
inductive UsageEvent where
  | recordSample (streamID : String) (counters : List Counter)
  | acknowledgeUsage (streamID : String) (seq : Int)
  | requireUsageRecovery (streamID message : String)

/-- The store, with the samples accepted so far and the messages ever written to the outbox. -/
structure Metering where
  store : Store
  samples : List Sample
  written : List (String × UsageBatch)

/-- The samples of a call, before it runs. -/
def samplesOf (streamID : String) (counters : List Counter) (s : Store) : List Sample :=
  counters.map fun c => ⟨streamID, c, s.cursors.get? (cursorID streamID c.userID)⟩

def Metering.step (m : Metering) : UsageEvent → Metering
  | .recordSample streamID counters =>
    match recordSample streamID counters m.store with
    | .error _ => m
    | .ok (_, store) =>
      { store
        samples := m.samples ++ samplesOf streamID counters m.store
        written := m.written ++ (sampleMessages streamID counters m.store).map (streamID, ·) }
  | .acknowledgeUsage streamID seq =>
    match acknowledgeUsage streamID seq m.store with
    | .error _ => m
    | .ok store => { m with store }
  | .requireUsageRecovery streamID message =>
    match requireUsageRecovery streamID message m.store with
    | .error _ => m
    | .ok store => { m with store }

def Metering.run (events : List UsageEvent) : Metering :=
  events.foldl Metering.step ⟨.empty, [], []⟩

/-- The accepted samples of one user in one stream. -/
def Metering.history (m : Metering) (streamID userID : String) : List Sample :=
  m.samples.filter fun x => x.streamID = streamID ∧ x.counter.userID = userID

/-- The deltas ever written for one user in one stream. -/
def Metering.writtenFor (m : Metering) (streamID userID : String) : List UsageDelta :=
  ((m.written.filter (·.1 = streamID)).flatMap (·.2.deltas)).filter (·.userId = userID)

/-- What holds of one user in one stream. -/
structure Metering.Inv (m : Metering) (streamID userID : String) : Prop where
  metered : Metered (m.history streamID userID) (m.store.cursors.get? (cursorID streamID userID))
  written : m.writtenFor streamID userID = writtenBy (m.history streamID userID)

/-- The sampling loop extends the history of every user of the stream. -/
theorem recordCounters_metered {streamID : String} {counters : List Counter} {s : Store}
    {tx : SampleTx} (h : recordCounters streamID s.cursors counters = .ok tx)
    (old : String → List Sample)
    (hold : ∀ u, Metered (old u) (s.cursors.get? (cursorID streamID u))) :
    (∀ u, Metered (old u ++ (samplesOf streamID counters s).filter (·.counter.userID = u))
        (tx.cursors.get? (cursorID streamID u)) ∧
      tx.deltas.filter (·.userID = u) =
        ((samplesOf streamID counters s).filter (·.counter.userID = u)).flatMap Sample.deltas) ∧
      ∀ id, (∀ u, id ≠ cursorID streamID u) → tx.cursors.get? id = s.cursors.get? id := by
  have key := foldlM_induction_prefix (I := fun done tx =>
    (∀ u, Metered (old u ++ (samplesOf streamID done s).filter (·.counter.userID = u))
        (tx.cursors.get? (cursorID streamID u)) ∧
      tx.deltas.filter (·.userID = u) =
        ((samplesOf streamID done s).filter (·.counter.userID = u)).flatMap Sample.deltas ∧
      (u ∉ tx.seen → tx.cursors.get? (cursorID streamID u) =
        s.cursors.get? (cursorID streamID u))) ∧
      ∀ id, (∀ u, id ≠ cursorID streamID u) → tx.cursors.get? id = s.cursors.get? id)
    ?_ [] h ?_
  · exact ⟨fun u => ⟨(key.1 u).1, (key.1 u).2.1⟩, key.2⟩
  · rintro done tx c tx' ⟨hu, hid⟩ hstep
    obtain ⟨hgood, -, r, hr, rfl⟩ := recordCounter_spec hstep
    simp only [badCounter, not_or] at hgood
    obtain ⟨-, -, -, -, -, -, hstart, -, hseen⟩ := hgood
    have hcur : tx.cursors.get? (cursorID streamID c.userID) =
        s.cursors.get? (cursorID streamID c.userID) := (hu c.userID).2.2 hseen
    have hsamples : samplesOf streamID (done ++ [c]) s = samplesOf streamID done s ++
        [⟨streamID, c, tx.cursors.get? (cursorID streamID c.userID)⟩] := by
      simp [samplesOf, hcur]
    refine ⟨fun u => ?_, fun id hne => ?_⟩
    · obtain ⟨hm, hd, hkeep⟩ := hu u
      rw [hsamples, List.filter_append]
      by_cases huc : c.userID = u
      · subst huc
        have hx : ([⟨streamID, c, tx.cursors.get? (cursorID streamID c.userID)⟩] :
            List Sample).filter (·.counter.userID = c.userID) =
            [⟨streamID, c, tx.cursors.get? (cursorID streamID c.userID)⟩] := by simp
        rw [hx, ← List.append_assoc, List.flatMap_append, List.flatMap_singleton,
          List.filter_append, hd]
        refine ⟨?_, ?_, fun hnot => absurd (List.mem_cons_self) hnot⟩
        · have hsnoc := Metered.snoc (x := ⟨streamID, c, tx.cursors.get? (cursorID streamID c.userID)⟩)
            hm (not_lt.1 hstart) hr
          convert hsnoc using 1
          split_ifs with hs <;> simp
        · congr 1
          rw [Sample.deltas_of_ok hr]
          exact List.filter_eq_self.2 fun d hd => decide_eq_true (of_mem_deltas hr hd).1
      · have hx : ([⟨streamID, c, tx.cursors.get? (cursorID streamID c.userID)⟩] :
            List Sample).filter (·.counter.userID = u) = [] := by simp [huc]
        have hother : (if r.isSome then tx.cursors.set (cursorID streamID c.userID) (cursorOf c)
            else tx.cursors).get? (cursorID streamID u) =
            tx.cursors.get? (cursorID streamID u) := by
          split_ifs
          · exact Table.get?_set_of_ne _ _ fun he => huc (cursorID_inj he).2.symm
          · rfl
        have hnone : (r.getD []).filter (·.userID = u) = [] :=
          List.filter_eq_nil_iff.2 fun d hd => by
            simpa [(of_mem_deltas hr hd).1] using huc
        rw [hx, List.append_nil, hother, List.filter_append, hnone, List.append_nil]
        exact ⟨hm, hd, fun hnot => hkeep fun hin => hnot (List.mem_cons_of_mem _ hin)⟩
    · rw [← hid id hne]
      split_ifs
      · exact Table.get?_set_of_ne _ _ (hne c.userID)
      · rfl
  · exact ⟨fun u => ⟨by simpa [samplesOf] using hold u, by simp [samplesOf], fun _ => rfl⟩,
      fun _ _ => rfl⟩

theorem cursors_acknowledgeUsage {streamID : String} {seq : Int} {s s' : Store}
    (h : acknowledgeUsage streamID seq s = .ok s') : s'.cursors = s.cursors := by
  simp only [acknowledgeUsage, bind_eq_ok, pure_eq_ok] at h
  obtain ⟨_, _, _, _, rfl⟩ := h
  rfl

theorem cursors_requireUsageRecovery {streamID message : String} {s s' : Store}
    (h : requireUsageRecovery streamID message s = .ok s') : s'.cursors = s.cursors := by
  simp only [requireUsageRecovery, bind_eq_ok, pure_eq_ok] at h
  obtain ⟨_, _, rfl⟩ := h
  rfl

theorem flatMap_sampleMessages {streamID : String} {counters : List Counter} {s : Store}
    {tx : SampleTx} (h : recordCounters streamID s.cursors counters = .ok tx) :
    (sampleMessages streamID counters s).flatMap (·.deltas) = tx.deltas.flatMap pieces := by
  rw [← flatMap_batchDeltas tx.runtimeID, sampleMessages, h]

theorem filter_pieces (ds : List Delta) (u : String) :
    (ds.flatMap pieces).filter (·.userId = u) = (ds.filter (·.userID = u)).flatMap pieces := by
  induction ds with
  | nil => rfl
  | cons d ds ih =>
    rw [List.flatMap_cons, List.filter_append, ih]
    by_cases hd : d.userID = u
    · have : (pieces d).filter (·.userId = u) = pieces d :=
        List.filter_eq_self.2 fun p hp => decide_eq_true ((mem_pieces hp).1.trans hd)
      simp [hd, this]
    · have : (pieces d).filter (·.userId = u) = [] :=
        List.filter_eq_nil_iff.2 fun p hp => by simpa [(mem_pieces hp).1] using hd
      simp [hd, this]

theorem Metering.inv_step {m : Metering} (hinv : ∀ t u, m.Inv t u) (e : UsageEvent) (t u : String) :
    (m.step e).Inv t u := by
  cases e with
  | recordSample streamID counters =>
    simp only [step]
    cases h : recordSample streamID counters m.store with
    | error e => exact hinv t u
    | ok out =>
      obtain ⟨first, s'⟩ := out
      obtain ⟨⟨tx, htx, hcursors⟩, -⟩ := recordSample_spec h
      obtain ⟨hloop, hrest⟩ := recordCounters_metered htx (m.history streamID)
        fun u => (hinv streamID u).metered
      have hstream : ∀ x ∈ samplesOf streamID counters m.store, x.streamID = streamID := by
        intro x hx
        obtain ⟨c, -, rfl⟩ := List.mem_map.1 hx
        rfl
      by_cases ht : streamID = t
      · subst ht
        obtain ⟨hm, hd⟩ := hloop u
        have hnew : (samplesOf streamID counters m.store).filter
              (fun x => x.streamID = streamID ∧ x.counter.userID = u) =
            (samplesOf streamID counters m.store).filter (·.counter.userID = u) :=
          List.filter_congr fun x hx => by simp [hstream x hx]
        constructor
        · simp only [history, List.filter_append, hcursors, hnew]
          exact hm
        · have hw := (hinv streamID u).written
          have hmessages : (((sampleMessages streamID counters m.store).map
                (Prod.mk streamID)).filter (·.1 = streamID)).flatMap (·.2.deltas) =
              tx.deltas.flatMap pieces := by
            rw [← flatMap_sampleMessages htx]
            simp [List.filter_map, Function.comp_def, List.flatMap_map]
          unfold writtenFor history writtenBy at *
          rw [List.filter_append, List.filter_append, List.flatMap_append, List.filter_append, hnew,
            hw, hmessages, filter_pieces, hd, List.flatMap_append, List.flatMap_append]
      · have hnone : (samplesOf streamID counters m.store).filter
            (fun x => x.streamID = t ∧ x.counter.userID = u) = [] :=
          List.filter_eq_nil_iff.2 fun x hx => by simp [hstream x hx, ht]
        constructor
        · simp only [history, List.filter_append, hnone, List.append_nil, hcursors]
          rw [hrest _ fun u' he => ht (cursorID_inj he).1.symm]
          exact (hinv t u).metered
        · have hw := (hinv t u).written
          simp only [writtenFor, history] at hw
          simp only [writtenFor, history, List.filter_append, hnone, List.append_nil, ← hw]
          simp [List.filter_map, Function.comp_def, ht]
  | acknowledgeUsage streamID seq =>
    simp only [step]
    cases h : acknowledgeUsage streamID seq m.store with
    | error e => exact hinv t u
    | ok s' => exact ⟨by simpa [history, cursors_acknowledgeUsage h] using (hinv t u).metered,
        (hinv t u).written⟩
  | requireUsageRecovery streamID message =>
    simp only [step]
    cases h : requireUsageRecovery streamID message m.store with
    | error e => exact hinv t u
    | ok s' => exact ⟨by simpa [history, cursors_requireUsageRecovery h] using (hinv t u).metered,
        (hinv t u).written⟩

theorem Metering.inv_run (events : List UsageEvent) (t u : String) :
    (Metering.run events).Inv t u := by
  have hstart (t u : String) : Metering.Inv ⟨.empty, [], []⟩ t u := ⟨Metered.nil, rfl⟩
  exact List.foldlRecOn events Metering.step (motive := fun m => ∀ t u, m.Inv t u) hstart
    (fun m hm e _ => Metering.inv_step hm e) t u

/-! ## The results -/

theorem Metered.of_append {pre post : List Sample} {x : Sample} {xs : List Sample}
    {cur : Option CursorRow} (h : Metered xs cur) (hxs : xs = pre ++ x :: post) :
    Metered pre x.previous ∧ ∃ r, meterCounter x.previous x.counter = .ok r := by
  induction h generalizing post with
  | nil => simp at hxs
  | @snoc ys y r hys _ hr ih =>
    rcases List.eq_nil_or_concat post with rfl | ⟨post', z, rfl⟩
    · obtain ⟨rfl, rfl⟩ : ys = pre ∧ y = x := by simpa using hxs
      exact ⟨hys, r, hr⟩
    · have hxs' : ys ++ [y] = (pre ++ x :: post') ++ [z] := by simpa using hxs
      exact ih (List.append_inj' hxs' rfl).1

/-- After a final sample, and before another runtime is sampled, the cursor stays closed. -/
theorem Metered.closed_of_final {xs : List Sample} {cur : Option CursorRow} (h : Metered xs cur)
    {y : Sample} (hy : y ∈ xs) (hfinal : y.counter.final)
    (hgrouped : Grouped ((xs.map (·.counter.runtimeID)) ++ [y.counter.runtimeID])) :
    ∃ o, cur = some o ∧ o.closed ∧ o.runtimeID = y.counter.runtimeID := by
  induction h with
  | nil => simp at hy
  | @snoc xs x r hxs _ hr ih =>
    have hsome := isSome_iff_not_stale hr
    rcases List.mem_append.1 hy with hy | hy
    · obtain ⟨o, ho, hclosed, hrun⟩ := ih hy (hgrouped.of_sublist (by simp))
      have hx : x.counter.runtimeID = y.counter.runtimeID := by
        by_contra hne
        have hmem : [y.counter.runtimeID].Sublist (xs.map (·.counter.runtimeID)) :=
          List.singleton_sublist.2 (List.mem_map.2 ⟨y, hy, rfl⟩)
        have hsub := hmem.append (List.Sublist.refl [x.counter.runtimeID, y.counter.runtimeID])
        exact hgrouped y.counter.runtimeID x.counter.runtimeID y.counter.runtimeID
          (by simpa using hsub) (Ne.symm hne) rfl
      by_cases hxf : x.counter.final
      · have : ¬ stale x.previous x.counter := fun ⟨_, _, _, _, hnf⟩ => hnf hxf
        exact ⟨_, if_pos (hsome.2 this), hxf, hx⟩
      · have hst : stale x.previous x.counter := ⟨o, by simp [ho], hclosed, by rw [hrun, hx], hxf⟩
        exact ⟨o, by rw [if_neg fun h => hsome.1 h hst, ho], hclosed, hrun⟩
    · obtain rfl := List.mem_singleton.1 hy
      have : ¬ stale y.previous y.counter := fun ⟨_, _, _, _, hnf⟩ => hnf hfinal
      exact ⟨_, if_pos (hsome.2 this), hfinal, rfl⟩

/-- A non-final sample after the runtime's final one adds nothing. -/
theorem Metered.deltas_after_final {xs pre post : List Sample} {x y : Sample}
    {cur : Option CursorRow} (h : Metered xs cur)
    (hgrouped : Grouped (xs.map (·.counter.runtimeID))) (hxs : xs = pre ++ x :: post)
    (hy : y ∈ pre) (hfinal : y.counter.final) (hrun : y.counter.runtimeID = x.counter.runtimeID)
    (hx : ¬ x.counter.final) : x.deltas = [] := by
  obtain ⟨hpre, r, hr⟩ := h.of_append hxs
  subst hxs
  obtain ⟨o, ho, hclosed, ho'⟩ := hpre.closed_of_final hy hfinal
    (hgrouped.of_sublist (by simp [hrun]))
  have hst : stale x.previous x.counter := ⟨o, by simp [ho], hclosed, by rw [ho', hrun], hx⟩
  have hnone : r = none := by
    simpa using fun h => (isSome_iff_not_stale hr).1 h hst
  rw [Sample.deltas_of_ok hr, hnone]
  rfl

/-- Byte conservation of metering, for every run, every stream and every user: the messages are
the outbox rows; the deltas written for the user come from the accepted samples one by one; their
bytes are those of the runtimes; a sample after the final one adds nothing; a call that fails
changes nothing; deltas with bytes do not overlap; and the delta without bytes is written exactly
for the gap before a runtime that replaces one that was never closed. -/
theorem metering_conserves (events : List UsageEvent) (streamID userID : String) :
    let m := Metering.run events
    let history := m.history streamID userID
    let written := m.writtenFor streamID userID
    (∀ counters first s', recordSample streamID counters m.store = .ok (first, s') →
      s'.batches.rows = m.store.batches.rows ++ outboxRows streamID
          (streamOf streamID m.store).nextSeq (sampleMessages streamID counters m.store)) ∧
    written = history.flatMap (fun x => x.deltas.flatMap pieces) ∧
    (Grouped (history.map (·.counter.runtimeID)) →
      (∀ dir : Direction, (written.map dir.usage).sum = meteredBytes dir (recorded history)) ∧
      ∀ pre x post, history = pre ++ x :: post → ¬ x.counter.final →
        (∃ y ∈ pre, y.counter.final ∧ y.counter.runtimeID = x.counter.runtimeID) →
        x.deltas = []) ∧
    (∀ counters e, recordSample streamID counters m.store = .error e →
      m.step (.recordSample streamID counters) = m) ∧
    (StartsAfter history →
      (written.filter (fun p => p.carries)).Pairwise fun p q => p.endUnixMs ≤ q.startUnixMs) ∧
    ∀ x ∈ history, x.deltas.filter (fun d => ¬ d.carries) = gapOf x.previous x.counter := by
  intro m history written
  obtain ⟨hmetered, hwritten⟩ := Metering.inv_run events streamID userID
  have hw : written = writtenBy history := hwritten
  refine ⟨fun counters first s' h => (recordSample_spec h).2.1, ?_, fun hg => ⟨fun dir => ?_, ?_⟩,
    fun counters e he => ?_, fun hs => ?_, fun x hx => ?_⟩
  · rw [hw, writtenBy, List.flatMap_assoc]
  · rw [hw]; exact hmetered.sum_written hg dir
  · rintro pre x post hxs hx ⟨y, hy, hfinal, hrun⟩
    exact hmetered.deltas_after_final hg hxs hy hfinal hrun hx
  · simp only [Metering.step, he]
  · rw [hw]; exact (hmetered.bytes_ordered hs).1
  · obtain ⟨pre, post, hxs⟩ := List.append_of_mem hx
    obtain ⟨-, r, hr⟩ := hmetered.of_append hxs
    rw [Sample.deltas_of_ok hr]
    exact zero_deltas_of_ok hr

end Bifurcation.Daemon
