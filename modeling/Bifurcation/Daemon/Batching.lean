import Bifurcation.Daemon.UsageSpec

/-!
# Batching loses nothing and keeps its limits

`batchDeltas` of `internal/state/usage.go`: three nested computations, the cutting into days, the
proportional share of the bytes, and the greedy packing under two limits.

**Pieces.** The pieces of a delta tile its interval. Their bytes are differences of a monotone
function of the cut points, so they are nonnegative and telescope.

**Messages.** A piece is packed into the message being filled if it still fits both limits, and
into a new one otherwise. A single piece always fits, as it costs at most `1446` projections.

Main result: `batchDeltas_lossless`.
-/

namespace Bifurcation.Daemon

/-! ## Pieces -/

/-- What `RecordSample` hands to the batching. -/
structure Delta.Valid (d : Delta) : Prop where
  start : 0 ≤ d.start
  before : d.start < d.end_
  safe : d.end_ ≤ maxSafeInteger
  upload : 0 ≤ d.upload ∧ d.upload ≤ maxInt64
  download : 0 ≤ d.download ∧ d.download ≤ maxInt64

/-- Consecutive pieces cover an interval. -/
def Tiles : List UsageDelta → Int → Int → Prop
  | [], start, stop => start = stop
  | p :: ps, start, stop =>
    p.startUnixMs = start ∧ p.startUnixMs < p.endUnixMs ∧ Tiles ps p.endUnixMs stop

/-- The pieces of one delta. -/
structure Pieces (d : Delta) (ps : List UsageDelta) : Prop where
  tiles : Tiles ps d.start d.end_
  user : ∀ p ∈ ps, p.userId = d.userID ∧ p.incomplete = d.incomplete
  day : ∀ p ∈ ps, p.endUnixMs - p.startUnixMs ≤ dayMilliseconds
  nonneg : ∀ p ∈ ps, 0 ≤ p.uploadBytes ∧ 0 ≤ p.downloadBytes
  upload : (ps.map UsageDelta.uploadBytes).sum = d.upload
  download : (ps.map UsageDelta.downloadBytes).sum = d.download

/-- The share of the bytes before a cut point grows with it. -/
theorem scaledBytes_mono {total offset offset' duration : Int} (htotal : 0 ≤ total)
    (hoffset : 0 ≤ offset) (hle : offset ≤ offset') (hduration : 0 < duration) :
    scaledBytes total offset duration ≤ scaledBytes total offset' duration := by
  have hmul : 0 ≤ total * offset := mul_nonneg htotal hoffset
  have hmul' : total * offset ≤ total * offset' := mul_le_mul_of_nonneg_left hle htotal
  rw [scaledBytes, scaledBytes, Int.tdiv_eq_ediv_of_nonneg hmul,
    Int.tdiv_eq_ediv_of_nonneg (hmul.trans hmul')]
  exact Int.ediv_le_ediv hduration hmul'

/-- Every share fits an `int64` if the total does. -/
theorem scaledBytes_bounds {total offset duration : Int} (htotal : 0 ≤ total)
    (hoffset : 0 ≤ offset) (hle : offset ≤ duration) (hduration : 0 < duration) :
    0 ≤ scaledBytes total offset duration ∧ scaledBytes total offset duration ≤ total := by
  have hzero := scaledBytes_mono htotal le_rfl hoffset hduration
  have hself := scaledBytes_mono htotal hoffset hle hduration
  rw [scaledBytes_zero] at hzero
  rw [scaledBytes_self total hduration.ne'] at hself
  exact ⟨hzero, hself⟩

section OneDelta

variable {d : Delta}

/-- Enough fuel reaches the end of the interval. -/
theorem tiles_piecesFrom {n : ℕ} {start : Int} (hle : start ≤ d.end_)
    (hn : d.end_ - start ≤ n * dayMilliseconds) : Tiles (piecesFrom d n start) start d.end_ := by
  have hday : 0 < dayMilliseconds := by decide
  induction n generalizing start with
  | zero =>
    rw [piecesFrom, Tiles]
    push_cast at hn
    omega
  | succ n ih =>
    rw [piecesFrom]
    by_cases hlt : start < d.end_
    · rw [if_pos hlt]
      refine ⟨rfl, ?_, ih (min_le_left _ _) ?_⟩
      · show start < min d.end_ (start + dayMilliseconds)
        rw [lt_min_iff]
        omega
      · rw [Nat.cast_succ, add_one_mul] at hn
        have hnonneg := mul_nonneg (Int.natCast_nonneg n) hday.le
        rcases min_choice d.end_ (start + dayMilliseconds) with hmin | hmin
        · rw [hmin]
          omega
        · rw [hmin]
          omega
    · rw [if_neg hlt, Tiles]
      omega

/-- Once the end is reached, more fuel changes nothing. -/
theorem piecesFrom_of_le {n m : ℕ} {start : Int} (hn : d.end_ - start ≤ n * dayMilliseconds)
    (hnm : n ≤ m) : piecesFrom d m start = piecesFrom d n start := by
  have hday : 0 < dayMilliseconds := by decide
  induction n generalizing m start with
  | zero =>
    have hdone : ¬ start < d.end_ := by
      push_cast at hn
      omega
    cases m with
    | zero => rfl
    | succ m => rw [piecesFrom, piecesFrom, if_neg hdone]
  | succ n ih =>
    obtain ⟨m, rfl⟩ : ∃ k, m = k + 1 := ⟨m - 1, by omega⟩
    rw [piecesFrom, piecesFrom]
    by_cases hlt : start < d.end_
    · rw [if_pos hlt, if_pos hlt]
      refine congrArg _ (ih ?_ (by omega))
      rw [Nat.cast_succ, add_one_mul] at hn
      have hnonneg := mul_nonneg (Int.natCast_nonneg n) hday.le
      rcases min_choice d.end_ (start + dayMilliseconds) with hmin | hmin
      · rw [hmin]
        omega
      · rw [hmin]
        omega
    · rw [if_neg hlt, if_neg hlt]

/-- A piece between two cut points has its share of the bytes. -/
theorem bytes_piecesFrom (hbefore : d.start < d.end_) (hup : 0 ≤ d.upload)
    (hdown : 0 ≤ d.download) {n : ℕ} {start : Int} (hstart : d.start ≤ start) {p : UsageDelta}
    (h : p ∈ piecesFrom d n start) :
    p.incomplete = d.incomplete ∧
      (0 ≤ p.uploadBytes ∧ p.uploadBytes ≤ d.upload) ∧
      (0 ≤ p.downloadBytes ∧ p.downloadBytes ≤ d.download) := by
  have hday : 0 < dayMilliseconds := by decide
  have hduration : 0 < d.end_ - d.start := by omega
  induction n generalizing start with
  | zero => cases h
  | succ n ih =>
    rw [piecesFrom] at h
    by_cases hlt : start < d.end_
    · rw [if_pos hlt] at h
      have hcut : start < min d.end_ (start + dayMilliseconds) := by
        rw [lt_min_iff]
        omega
      rcases List.mem_cons.1 h with rfl | h
      · have hoffset : 0 ≤ start - d.start := by omega
        have hle : start - d.start ≤ min d.end_ (start + dayMilliseconds) - d.start := by omega
        have hend : min d.end_ (start + dayMilliseconds) - d.start ≤ d.end_ - d.start := by
          have := min_le_left d.end_ (start + dayMilliseconds)
          omega
        have hshare : ∀ total, 0 ≤ total →
            0 ≤ scaledBytes total (min d.end_ (start + dayMilliseconds) - d.start)
                (d.end_ - d.start) - scaledBytes total (start - d.start) (d.end_ - d.start) ∧
              scaledBytes total (min d.end_ (start + dayMilliseconds) - d.start)
                (d.end_ - d.start) - scaledBytes total (start - d.start) (d.end_ - d.start) ≤
                total := by
          intro total htotal
          have hmono := scaledBytes_mono htotal hoffset hle hduration
          have hlow := scaledBytes_bounds htotal hoffset (hle.trans hend) hduration
          have hhigh := scaledBytes_bounds htotal (hoffset.trans hle) hend hduration
          omega
        exact ⟨rfl, hshare d.upload hup, hshare d.download hdown⟩
      · exact ih (by omega) h
    · rw [if_neg hlt] at h
      cases h

theorem pieces_spec (h : d.Valid) : Pieces d (pieces d) where
  tiles := tiles_piecesFrom h.before.le (fuel_le d)
  user := fun p hp => ⟨(mem_pieces hp).1,
    (bytes_piecesFrom h.before h.upload.1 h.download.1 le_rfl hp).1⟩
  day := fun p hp => (mem_pieces hp).2.2.2.2
  nonneg := by
    intro p hp
    obtain ⟨-, hup, hdown⟩ := bytes_piecesFrom h.before h.upload.1 h.download.1 le_rfl hp
    exact ⟨hup.1, hdown.1⟩
  upload := (sum_pieces h.before).1
  download := (sum_pieces h.before).2

end OneDelta

/-! ## Messages -/

/-- The projections of a message. -/
def projections (ps : List UsageDelta) : Int := (ps.map cost).sum

/-- A message within both limits. -/
structure Packed (runtimeID : String) (m : UsageBatch) : Prop where
  runtime : m.coreRuntimeId = runtimeID
  nonempty : 1 ≤ m.deltas.length
  length : m.deltas.length ≤ 256
  projections : projections m.deltas ≤ 8000

/-- The finished messages are packed and the message being filled is within both limits. -/
structure Batching.Inv (runtimeID : String) (b : Batching) : Prop where
  result : ∀ m ∈ b.result, Packed runtimeID m
  length : b.deltas.length ≤ 256
  projections : b.projections = Daemon.projections b.deltas
  budget : b.projections ≤ 8000

section Packing

variable {runtimeID : String} {b : Batching} {p : UsageDelta}

theorem Batching.Inv.flush (h : b.Inv runtimeID) : (b.flush runtimeID).Inv runtimeID := by
  unfold Batching.flush
  by_cases hlen : b.deltas.length > 0
  · rw [if_pos hlen]
    refine ⟨fun m hm => ?_, by simp, by simp [Daemon.projections], by simp⟩
    rcases List.mem_append.1 hm with hm | hm
    · exact h.result m hm
    · obtain rfl := List.mem_singleton.1 hm
      exact ⟨rfl, hlen, h.length, h.projections ▸ h.budget⟩
  · rw [if_neg hlen]
    exact h

/-- After a flush nothing is being filled. -/
theorem Batching.Inv.flush_nil (h : b.Inv runtimeID) :
    (b.flush runtimeID).deltas = [] ∧ (b.flush runtimeID).projections = 0 := by
  have hnil := (b.all_flush runtimeID).2
  refine ⟨hnil, ?_⟩
  rw [h.flush.projections, hnil]
  rfl

/-- A piece of at most a day fits an empty message. -/
theorem cost_le (hday : p.endUnixMs - p.startUnixMs ≤ dayMilliseconds) : cost p ≤ 8000 := by
  unfold cost
  unfold dayMilliseconds at hday
  omega

theorem Batching.Inv.add (h : b.Inv runtimeID)
    (hday : p.endUnixMs - p.startUnixMs ≤ dayMilliseconds) : (b.add runtimeID p).Inv runtimeID := by
  have hpush : ∀ c : Batching, c.Inv runtimeID → c.deltas.length < 256 →
      c.projections + cost p ≤ 8000 →
      Batching.Inv runtimeID
        { c with deltas := c.deltas ++ [p], projections := c.projections + cost p } := by
    intro c hc hlen hcost
    refine ⟨hc.result, ?_, ?_, hcost⟩
    · rw [List.length_append, List.length_singleton]
      omega
    · simp only [Daemon.projections, hc.projections, List.map_append, List.map_singleton,
        List.sum_append, List.sum_singleton]
  unfold Batching.add
  by_cases hfull : b.deltas.length ≥ 256 ∨ b.projections + cost p > 8000
  · simp only [if_pos hfull]
    obtain ⟨hnil, hzero⟩ := h.flush_nil
    refine hpush _ h.flush ?_ ?_
    · simp [hnil]
    · rw [hzero, zero_add]
      exact cost_le hday
  · simp only [if_neg hfull]
    exact hpush b h (by omega) (by omega)

theorem Batching.Inv.foldl (h : b.Inv runtimeID) {ps : List UsageDelta}
    (hday : ∀ p ∈ ps, p.endUnixMs - p.startUnixMs ≤ dayMilliseconds) :
    (ps.foldl (Batching.add runtimeID) b).Inv runtimeID := by
  induction ps generalizing b with
  | nil => exact h
  | cons p ps ih =>
    exact ih (h.add (hday p List.mem_cons_self)) fun q hq => hday q (List.mem_cons_of_mem _ hq)

theorem packed_batchDeltas {deltas : List Delta} {m : UsageBatch}
    (h : m ∈ batchDeltas runtimeID deltas) : Packed runtimeID m := by
  have hempty : Batching.Inv runtimeID ⟨[], [], 0⟩ :=
    ⟨by simp, by simp, rfl, by simp⟩
  have hday : ∀ p ∈ deltas.flatMap pieces, p.endUnixMs - p.startUnixMs ≤ dayMilliseconds := by
    intro p hp
    obtain ⟨d, -, hp⟩ := List.mem_flatMap.1 hp
    exact (mem_pieces hp).2.2.2.2
  exact (hempty.foldl hday).flush.result m h

end Packing

/-- Read one after the other, the messages hold the pieces of the first delta, then of the second,
and so on. Each loop over a delta has reached its end by itself: more fuel adds nothing. Every
message is within both limits. -/
theorem batchDeltas_lossless (runtimeID : String) (deltas : List Delta)
    (h : ∀ d ∈ deltas, d.Valid) :
    (∃ parts : List (List UsageDelta),
      (batchDeltas runtimeID deltas).flatMap UsageBatch.deltas = parts.flatten ∧
        List.Forall₂ Pieces deltas parts) ∧
    (∀ d ∈ deltas, ∀ n : ℕ, d.end_ - d.start ≤ n * dayMilliseconds →
      piecesFrom d n d.start = pieces d) ∧
    ∀ m ∈ batchDeltas runtimeID deltas, m.coreRuntimeId = runtimeID ∧
      1 ≤ m.deltas.length ∧ m.deltas.length ≤ 256 ∧ (m.deltas.map cost).sum ≤ 8000 := by
  refine ⟨⟨deltas.map pieces, ?_, ?_⟩, fun d _ n hn => ?_, fun m hm => ?_⟩
  · rw [flatMap_batchDeltas, List.flatMap_def]
  · rw [List.forall₂_map_right_iff, List.forall₂_same]
    exact fun d hd => pieces_spec (h d hd)
  · rcases Nat.le_total n ((d.end_ - d.start) / dayMilliseconds + 1).toNat with hle | hle
    · exact (piecesFrom_of_le hn hle).symm
    · exact piecesFrom_of_le (fuel_le d) hle
  · have hpacked := packed_batchDeltas hm
    exact ⟨hpacked.runtime, hpacked.nonempty, hpacked.length, hpacked.projections⟩

/-- Two deltas, one of them longer than a day and with as many bytes as fit. -/
theorem twoDeltas_lossless : ∃ parts : List (List UsageDelta),
    (batchDeltas "runtime"
      [⟨"alice", 0, 100000000, maxInt64, 3, false, false⟩,
        ⟨"bob", 5, maxSafeInteger, 1, maxInt64, true, true⟩]).flatMap UsageBatch.deltas =
        parts.flatten ∧
      List.Forall₂ Pieces
        [⟨"alice", 0, 100000000, maxInt64, 3, false, false⟩,
          ⟨"bob", 5, maxSafeInteger, 1, maxInt64, true, true⟩] parts :=
  (batchDeltas_lossless "runtime" _ (by
    intro d hd
    simp only [List.mem_cons, List.not_mem_nil, or_false] at hd
    rcases hd with rfl | rfl <;> constructor <;> decide)).1

end Bifurcation.Daemon
