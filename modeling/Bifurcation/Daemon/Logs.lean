import Bifurcation.Lib.Suffix
import Bifurcation.Lib.Utf8

/-!
# The log buffer

`logBuffer` of `internal/adapters/singbox/logs.go`: the core appends its messages, and an
inspection reads the newest of them. Two bounds hold at once, on the number of lines and on the
bytes, of which a running counter is kept. Both calls hold the buffer's lock, so a run is a sequence
of calls.

**The eviction loop** indexes the first line before it drops it. On an empty buffer that would
panic, here `none`.

Main results: `perform_kept` (a call keeps the invariant `Kept`) and `logBuffer_keeps_newest` (what
every run keeps and every read returns).
-/

namespace Bifurcation.Daemon

open Suffix

/-- `core.LogResult`. -/
structure LogResult where
  source : Bytes
  lines : List Bytes
  truncated : Bool
deriving DecidableEq

structure LogBuffer where
  lines : List Bytes := []
  size : Int := 0
  dropped : Bool := false
deriving DecidableEq

namespace LogBuffer

/-- `strings.TrimRight(message, "\r\n")`. -/
def trimRight (message : Bytes) : Bytes := message.rdropWhile fun b => b = 13 || b = 10

/-- `256<<10`. -/
def maxLine : ℕ := 262144

/-- `message[len(message)-(256<<10):]` of a longer message. -/
def lastBytes (message : Bytes) : Bytes := message.drop (message.length - maxLine)

/-- The loop of `append`. -/
def evict : List Bytes → Int → Bool → Option LogBuffer
  | [], size, dropped =>
    if 1048576 < size ∨ 5000 < ([] : List Bytes).length then none else some ⟨[], size, dropped⟩
  | line :: lines, size, dropped =>
    if 1048576 < size ∨ 5000 < (line :: lines).length then
      evict lines (size - line.length) true
    else some ⟨line :: lines, size, dropped⟩

def append (b : LogBuffer) (message : Bytes) : Option LogBuffer :=
  let message := trimRight message
  if maxLine < message.length then
    let message := lastBytes message
    evict (b.lines ++ [message]) (b.size + message.length) true
  else evict (b.lines ++ [message]) (b.size + message.length) b.dropped

/-- `max(1, min(5000, maxLines))`. -/
def lineLimit (maxLines : Int) : ℕ := (max 1 (min 5000 maxLines)).toNat

/-- `max(1, min(256<<10, maxBytes))`. -/
def byteLimit (maxBytes : Int) : ℕ := (max 1 (min 262144 maxBytes)).toNat

/-- The loop of `read`, from the newest line back. The second part says that it was left early. -/
def collect (maxBytes : ℕ) : ℕ → List Bytes → List Bytes × Bool
  | _, [] => ([], false)
  | size, line :: older =>
    if maxBytes < size + line.length then ([], true)
    else
      let (lines, truncated) := collect maxBytes (size + line.length) older
      (line :: lines, truncated)

def read (b : LogBuffer) (maxLines maxBytes : Int) : LogResult :=
  let start := b.lines.length - lineLimit maxLines
  let (lines, truncated) := collect (byteLimit maxBytes) 0 (b.lines.drop start).reverse
  { source := utf8 "embedded-core"
    lines := lines.reverse
    truncated := b.dropped || 0 < start || truncated }

end LogBuffer

/-! ## Runs -/

inductive LogCall where
  | append (message : Bytes)
  | read (maxLines maxBytes : Int)

namespace LogBuffer

/-- A read leaves the buffer as it is. -/
def perform (b : LogBuffer) : LogCall → Option LogBuffer
  | .append message => b.append message
  | .read _ _ => some b

/-- A run of the buffer of a new core. -/
def run (calls : List LogCall) : Option LogBuffer := calls.foldlM perform {}

/-- The messages that a run appends. -/
def messages (calls : List LogCall) : List Bytes :=
  calls.filterMap fun
    | .append message => some message
    | .read _ _ => none

/-- A message as it is stored. -/
def stored (message : Bytes) : Bytes := lastBytes (trimRight message)

/-- A message that is too long for a line. -/
def Shortened (message : Bytes) : Prop := maxLine < (trimRight message).length

/-- The two bounds of the buffer. -/
def Within (lines : List Bytes) : Prop :=
  total List.length lines ≤ 1048576 ∧ lines.length ≤ 5000

instance : DecidablePred Within := fun _ => inferInstanceAs (Decidable (_ ∧ _))

/-- What a buffer keeps of the messages. -/
structure Kept (history : List Bytes) (b : LogBuffer) : Prop where
  size : b.size = total List.length b.lines
  lines : Longest Within (history.map stored) b.lines
  dropped : b.dropped = true ↔
    b.lines.length < history.length ∨ ∃ message ∈ history, Shortened message

/-! ## One append -/

theorem within_nil : Within [] := ⟨Nat.zero_le _, Nat.zero_le _⟩

theorem within_init {lines : List Bytes} {line : Bytes} (h : Within (lines ++ [line])) :
    Within lines := by
  obtain ⟨hbytes, hlines⟩ := h
  simp only [total_append, List.length_append, List.length_singleton] at hbytes hlines
  exact ⟨by omega, by omega⟩

/-- The loop drops lines until both bounds hold, and never asks an empty buffer for its first. -/
theorem evict_eq (lines : List Bytes) (dropped : Bool) :
    evict lines (total List.length lines) dropped =
      some ⟨dropUntil Within lines, total List.length (dropUntil Within lines),
        dropped || decide ((dropUntil Within lines).length < lines.length)⟩ := by
  induction lines generalizing dropped with
  | nil => simp [evict, dropUntil]
  | cons line lines ih =>
    by_cases hwithin : Within (line :: lines)
    · have hstop : ¬ ((1048576 : Int) < (total List.length (line :: lines) : ℕ) ∨
          5000 < (line :: lines).length) := by
        obtain ⟨hbytes, hlines⟩ := hwithin
        omega
      rw [evict, if_neg hstop, dropUntil, if_pos hwithin]
      simp
    · have hover : (1048576 : Int) < (total List.length (line :: lines) : ℕ) ∨
          5000 < (line :: lines).length := by
        by_contra hstop
        exact hwithin ⟨by omega, by omega⟩
      have hrest : ((total List.length (line :: lines) : ℕ) : Int) - line.length =
          (total List.length lines : ℕ) := by
        rw [total_cons]
        push_cast
        ring
      have hshorter : (dropUntil Within lines).length < (line :: lines).length :=
        Nat.lt_succ_of_le (longest_dropUntil Within within_nil lines).suffix.length_le
      rw [evict, if_pos hover, hrest, ih, dropUntil, if_neg hwithin, decide_eq_true hshorter]
      simp

theorem lastBytes_of_le {message : Bytes} (h : message.length ≤ maxLine) :
    lastBytes message = message := by
  rw [lastBytes, Nat.sub_eq_zero_of_le h, List.drop_zero]

theorem length_stored (message : Bytes) : (stored message).length ≤ maxLine := by
  rw [stored, lastBytes, List.length_drop]
  omega

/-- Both branches of `append` store the message's last bytes. -/
theorem append_eq (b : LogBuffer) (message : Bytes) : b.append message =
    evict (b.lines ++ [stored message]) (b.size + (stored message).length)
      (b.dropped || decide (maxLine < (trimRight message).length)) := by
  rw [append]
  split_ifs with hlong
  · rw [decide_eq_true hlong, Bool.or_true, stored]
  · rw [decide_eq_false hlong, Bool.or_false, stored, lastBytes_of_le (not_lt.1 hlong)]

theorem maxLine_le : maxLine ≤ 1048576 := by norm_num [maxLine]

/-- A line alone is within both bounds. -/
theorem stored_within (message : Bytes) : Within [stored message] := by
  constructor
  · rw [total_cons, total_nil, add_zero]
    exact (length_stored message).trans maxLine_le
  · simp

/-- **An append keeps the invariant.** -/
theorem append_kept {history : List Bytes} {b : LogBuffer} (h : Kept history b)
    (message : Bytes) : ∃ b', b.append message = some b' ∧ Kept (history ++ [message]) b' := by
  have htotal : b.size + ((stored message).length : Int) =
      (total List.length (b.lines ++ [stored message]) : ℕ) := by
    rw [h.size, total_append, total_cons, total_nil]
    push_cast
    ring
  have hdrop := longest_dropUntil Within within_nil (b.lines ++ [stored message])
  refine ⟨_, by rw [append_eq, htotal, evict_eq], rfl, ?_, ?_⟩
  · rw [List.map_append]
    exact h.lines.concat (fun _ => within_init) hdrop
  · have hlength := h.lines.suffix.length_le
    have hlength' := hdrop.suffix.length_le
    simp only [List.length_append, List.length_singleton, List.length_map] at hlength hlength'
    simp only [Bool.or_eq_true, decide_eq_true_eq, h.dropped, List.length_append,
      List.length_singleton, List.mem_append, List.mem_singleton]
    constructor
    · rintro (((hless | ⟨m, hm, hshort⟩) | hshort) | hless)
      · exact .inl (by omega)
      · exact .inr ⟨m, .inl hm, hshort⟩
      · exact .inr ⟨message, .inr rfl, hshort⟩
      · exact .inl (by omega)
    · rintro (hless | ⟨m, hm | rfl, hshort⟩)
      · by_cases hb : b.lines.length < history.length
        · exact .inl (.inl (.inl hb))
        · exact .inr (by omega)
      · exact .inl (.inl (.inr ⟨m, hm, hshort⟩))
      · exact .inl (.inr hshort)

/-- **A call keeps the invariant.** -/
theorem perform_kept {history : List Bytes} {b : LogBuffer} (h : Kept history b)
    (call : LogCall) :
    ∃ b', b.perform call = some b' ∧ Kept (history ++ messages [call]) b' := by
  cases call with
  | append message => exact append_kept h message
  | read maxLines maxBytes => exact ⟨b, rfl, by simpa [messages] using h⟩

theorem kept_empty : Kept [] {} := ⟨rfl, .of_holds within_nil, by simp⟩

theorem foldlM_kept {history : List Bytes} {b : LogBuffer} (h : Kept history b)
    (calls : List LogCall) :
    ∃ b', calls.foldlM perform b = some b' ∧ Kept (history ++ messages calls) b' := by
  induction calls generalizing history b with
  | nil => exact ⟨b, rfl, by simpa [messages] using h⟩
  | cons call calls ih =>
    obtain ⟨b₁, hcall, hkept⟩ := perform_kept h call
    obtain ⟨b₂, hcalls, hkept'⟩ := ih hkept
    refine ⟨b₂, by rw [List.foldlM_cons, hcall]; exact hcalls, ?_⟩
    have happend : messages (call :: calls) = messages [call] ++ messages calls :=
      List.filterMap_append (l := [call])
    rwa [happend, ← List.append_assoc]

/-! ## One read -/

theorem collect_fst (limit size : ℕ) (newest : List Bytes) :
    (collect limit size newest).1 = takeWithin List.length limit size newest := by
  induction newest generalizing size with
  | nil => rfl
  | cons line older ih =>
    rw [collect, takeWithin]
    split_ifs with hover
    · rfl
    · simp only [ih]

/-- The loop is left early exactly when it leaves a line out. -/
theorem collect_snd (limit size : ℕ) (newest : List Bytes) :
    (collect limit size newest).2 = true ↔
      (collect limit size newest).1.length < newest.length := by
  induction newest generalizing size with
  | nil => simp [collect]
  | cons line older ih =>
    rw [collect]
    split_ifs with hover
    · simp
    · simp only [ih, List.length_cons, Nat.add_lt_add_iff_right]

/-- **A read returns the longest run of newest lines within both limits.** -/
theorem read_lines (b : LogBuffer) (maxLines maxBytes : Int) :
    Longest (fun lines => lines.length ≤ lineLimit maxLines ∧
      total List.length lines ≤ byteLimit maxBytes) b.lines (b.read maxLines maxBytes).lines := by
  have hlines := longest_drop (lineLimit maxLines) b.lines
  have hbytes := longest_takeWithin List.length (Nat.zero_le (byteLimit maxBytes))
    (b.lines.drop (b.lines.length - lineLimit maxLines))
  simp only [zero_add] at hbytes
  rw [read]
  simp only [collect_fst]
  exact hlines.inter (hereditary_length _) hbytes

theorem read_truncated (b : LogBuffer) (maxLines maxBytes : Int) :
    (b.read maxLines maxBytes).truncated = true ↔
      b.dropped = true ∨ (b.read maxLines maxBytes).lines.length < b.lines.length := by
  have hcollect := collect_snd (byteLimit maxBytes) 0
    (b.lines.drop (b.lines.length - lineLimit maxLines)).reverse
  have htake := (longest_takeWithin List.length (Nat.zero_le (byteLimit maxBytes))
    (b.lines.drop (b.lines.length - lineLimit maxLines))).suffix.length_le
  rw [← collect_fst] at htake
  simp only [read, Bool.or_eq_true, decide_eq_true_eq, hcollect, List.length_reverse,
    List.length_drop, or_assoc] at htake ⊢
  refine or_congr_right ?_
  omega

/-- **The buffer keeps the newest messages.** A run of appends and reads never indexes an empty
buffer. After it the counter is the sum of the lengths, both bounds hold, and the stored lines are
a suffix of the messages as they are stored, with the newest one. A read returns the longest run of
newest lines within its limits, and reports exactly whether a line was evicted or shortened or a
stored line is left out. -/
theorem logBuffer_keeps_newest (calls : List LogCall) :
    ∃ b, run calls = some b ∧ b.size = total List.length b.lines ∧ b.size ≤ 1048576 ∧
      b.lines.length ≤ 5000 ∧ b.lines <:+ (messages calls).map stored ∧
      (∀ older newest, messages calls = older ++ [newest] →
        ∃ lines, b.lines = lines ++ [stored newest]) ∧
      ∀ maxLines maxBytes,
        Longest (fun lines => lines.length ≤ lineLimit maxLines ∧
          total List.length lines ≤ byteLimit maxBytes) b.lines
          (b.read maxLines maxBytes).lines ∧
        ((b.read maxLines maxBytes).truncated = true ↔
          b.lines.length < (messages calls).length ∨
          (∃ message ∈ messages calls, Shortened message) ∨
          (b.read maxLines maxBytes).lines.length < b.lines.length) := by
  obtain ⟨b, hrun, hkept⟩ := foldlM_kept kept_empty calls
  rw [List.nil_append] at hkept
  obtain ⟨hbytes, hlines⟩ := hkept.lines.holds
  refine ⟨b, hrun, hkept.size, by rw [hkept.size]; exact_mod_cast hbytes, hlines,
    hkept.lines.suffix, fun older newest hmessages => ?_, fun maxLines maxBytes =>
      ⟨b.read_lines maxLines maxBytes, ?_⟩⟩
  · have hlongest := hkept.lines
    rw [hmessages, List.map_append] at hlongest
    exact hlongest.getLast (stored_within newest)
  · rw [read_truncated, hkept.dropped, or_assoc]

end LogBuffer

end Bifurcation.Daemon
