import Bifurcation.Daemon.Logs
import Bifurcation.Lib.Json
import Bifurcation.Lib.ValidUtf8

/-!
# Bounded diagnostics

`encodeDiagnostic` of `internal/panelclient/executor.go`: the diagnostic JSON of an inspection,
with as many of the newest log lines as fit the requested budget. How many that are is found by
bisection over the encoded sizes, with the log marked as truncated.

**Encoding.** `json.Marshal` writes the entries of the map in the order of their names. Of the
values only a log is looked into; any other is the text that `json.Marshal` writes for it, or none
where it cannot be written.

Main results: `marshal_grows` (every further line makes the encoding longer) and
`encodeDiagnostic_optimal`.
-/

namespace Bifurcation.Daemon

open Suffix

/-! ## Encoding -/

/-- A Go string as `json.Marshal` writes it: a stray byte becomes U+FFFD. -/
def quote (s : Bytes) : Bytes :=
  utf8 "\"" ++ (runes s).flatMap (fun
    | some c => encodeRunes (Json.printChar c)
    | none => utf8 "\uFFFD") ++ utf8 "\""

/-- The items of an array or the members of an object, with commas between them. -/
def commaSeparated (items : List Bytes) : Bytes := (utf8 ",").intercalate items

namespace LogResult

def marshal (logs : LogResult) : Bytes :=
  utf8 "\x7b\"source\":" ++ quote logs.source ++
    utf8 ",\"lines\":[" ++ commaSeparated (logs.lines.map quote) ++
    utf8 "],\"truncated\":" ++ utf8 (if logs.truncated then "true" else "false") ++ utf8 "\x7d"

/-- The log with other lines, marked as truncated. -/
def truncatedTo (logs : LogResult) (lines : List Bytes) : LogResult :=
  { logs with lines, truncated := true }

/-- `original[len(original)-count:]`. -/
def newest (logs : LogResult) (count : ℕ) : LogResult :=
  logs.truncatedTo (logs.lines.drop (logs.lines.length - count))

end LogResult

/-- A value of a diagnostic: a log, or another value by what `json.Marshal` writes for it. -/
inductive DiagnosticValue where
  | logs (result : LogResult)
  | other (encoding : Option Bytes)

def DiagnosticValue.marshal : DiagnosticValue → Option Bytes
  | .logs result => some result.marshal
  | .other encoding => encoding

/-- `map[string]any`, in the order of the names. -/
structure Diagnostic where
  entries : List (String × DiagnosticValue)
  sorted : (entries.map Prod.fst).Pairwise (· < ·)

inductive EncodeError where
  /-- `json.Marshal` cannot write one of the values. -/
  | marshal
  /-- `diagnostic metadata exceeds requested limit`. -/
  | exceedsLimit
deriving DecidableEq

namespace Diagnostic

/-- `diagnostic["logs"].(core.LogResult)`. -/
def logs (d : Diagnostic) : Option LogResult :=
  match d.entries.find? (·.1 = "logs") with
  | some (_, .logs result) => some result
  | _ => none

/-- Put a log under the name that has one. -/
def replaceLogs (result : LogResult) (entry : String × DiagnosticValue) :
    String × DiagnosticValue :=
  if entry.1 = "logs" then (entry.1, .logs result) else entry

theorem fst_replaceLogs (result : LogResult) :
    Prod.fst ∘ replaceLogs result = (Prod.fst : String × DiagnosticValue → String) := by
  funext entry
  simp only [Function.comp_apply, replaceLogs]
  split_ifs <;> rfl

/-- `diagnostic["logs"] = result`, where there is one. -/
def setLogs (d : Diagnostic) (result : LogResult) : Diagnostic where
  entries := d.entries.map (replaceLogs result)
  sorted := by
    rw [List.map_map, fst_replaceLogs]
    exact d.sorted

def marshalEntry (entry : String × DiagnosticValue) : Option Bytes :=
  entry.2.marshal.map fun value => quote (utf8 entry.1) ++ utf8 ":" ++ value

/-- `json.Marshal(diagnostic)`. -/
def marshal (d : Diagnostic) : Option Bytes :=
  (d.entries.mapM marshalEntry).map fun members =>
    utf8 "\x7b" ++ commaSeparated members ++ utf8 "\x7d"

/-- The budget that counts: 256 KiB where the requested one is not positive or larger. -/
def effectiveBudget (budget : Int) : ℕ :=
  if budget ≤ 0 ∨ 262144 < budget then 262144 else budget.toNat

/-- Does the encoding with the newest `count` lines fit? -/
def candidateFits (d : Diagnostic) (logs : LogResult) (budget count : ℕ) :
    Except EncodeError Bool := do
  let body ← found .marshal (d.setLogs (logs.newest count)).marshal
  return body.length ≤ budget

def encodeDiagnostic (d : Diagnostic) (budget : Int) : Except EncodeError Bytes := do
  let budget := effectiveBudget budget
  let encoded ← found .marshal d.marshal
  if encoded.length ≤ budget then return encoded
  match d.logs with
  | none => throw .exceedsLimit
  | some logs =>
    failIf (logs.lines.length = 0) .exceedsLimit
    let low ← bisect (d.candidateFits logs budget) 0 (logs.lines.length - 1)
    let encoded ← found .marshal (d.setLogs (logs.newest low)).marshal
    failIf (budget < encoded.length) .exceedsLimit
    return encoded

/-- The encoding is there and fits. -/
def Fits (limit : ℕ) (encoding : Option Bytes) : Prop := ∃ body ∈ encoding, body.length ≤ limit

/-- The diagnostic without log lines. Where that leaves lines out, it says so. -/
def withoutLines (d : Diagnostic) : Diagnostic :=
  match d.logs with
  | none => d
  | some logs => if logs.lines = [] then d else d.setLogs (logs.truncatedTo [])

/-! ## The size of an encoding -/

theorem length_quote_pos (s : Bytes) : 0 < (quote s).length := by
  rw [quote, List.length_append, List.length_append]
  exact Nat.add_pos_right _ (by decide)

theorem length_commaSeparated_cons (item : Bytes) (items : List Bytes) :
    (commaSeparated items).length + item.length ≤ (commaSeparated (item :: items)).length := by
  cases items with
  | nil => simp [commaSeparated]
  | cons next items =>
    simp only [commaSeparated, List.intercalate_cons_cons, List.length_append]
    omega

/-- **A log with one more line is longer.** -/
theorem marshal_grows (logs : LogResult) (line : Bytes) (lines : List Bytes) :
    (logs.truncatedTo lines).marshal.length <
      (logs.truncatedTo (line :: lines)).marshal.length := by
  have hcons := length_commaSeparated_cons (quote line) (lines.map quote)
  have hpos := length_quote_pos line
  simp only [LogResult.marshal, LogResult.truncatedTo, List.map_cons, List.length_append]
  omega

theorem monotone_newest (logs : LogResult) :
    Monotone fun count => (logs.newest count).marshal.length := by
  refine monotone_nat_of_le_succ fun count => ?_
  by_cases hcount : count < logs.lines.length
  · have hdrop := List.drop_eq_getElem_cons (l := logs.lines)
      (i := logs.lines.length - (count + 1)) (by omega)
    rw [show logs.lines.length - (count + 1) + 1 = logs.lines.length - count by omega] at hdrop
    show (logs.newest count).marshal.length ≤ (logs.newest (count + 1)).marshal.length
    rw [LogResult.newest, LogResult.newest, hdrop]
    exact (marshal_grows logs _ _).le
  · show (logs.newest count).marshal.length ≤ (logs.newest (count + 1)).marshal.length
    rw [LogResult.newest, LogResult.newest,
      show logs.lines.length - (count + 1) = logs.lines.length - count by omega]

theorem commaSeparated_frame (before after : List Bytes) :
    ∃ front back : Bytes, ∀ item,
      commaSeparated (before ++ item :: after) = front ++ item ++ back := by
  induction before with
  | nil =>
    cases after with
    | nil => exact ⟨[], [], fun item => by simp [commaSeparated]⟩
    | cons next after =>
      refine ⟨[], utf8 "," ++ commaSeparated (next :: after), fun item => ?_⟩
      simp [commaSeparated, List.intercalate_cons_cons]
  | cons first before ih =>
    obtain ⟨front, back, hframe⟩ := ih
    refine ⟨first ++ utf8 "," ++ front, back, fun item => ?_⟩
    have hrest := hframe item
    cases before with
    | nil =>
      simp only [commaSeparated, List.nil_append, List.cons_append,
        List.intercalate_cons_cons] at hrest ⊢
      rw [hrest]
      simp
    | cons second before =>
      simp only [commaSeparated, List.cons_append, List.intercalate_cons_cons] at hrest ⊢
      rw [hrest]
      simp

/-! ## The log within the diagnostic -/

theorem map_replaceLogs {entries : List (String × DiagnosticValue)}
    (h : ∀ entry ∈ entries, entry.1 ≠ "logs") (result : LogResult) :
    entries.map (replaceLogs result) = entries :=
  (List.map_congr_left fun entry hentry => if_neg (h entry hentry)).trans (List.map_id entries)

/-- One entry has the log, and the others do not change with it. -/
theorem exists_entries {d : Diagnostic} {logs : LogResult} (h : d.logs = some logs) :
    ∃ before after, d.entries = before ++ ("logs", .logs logs) :: after ∧
      ∀ result, (d.setLogs result).entries = before ++ ("logs", .logs result) :: after := by
  unfold Diagnostic.logs at h
  cases hfind : d.entries.find? (·.1 = "logs") with
  | none => simp [hfind] at h
  | some entry =>
    obtain ⟨name, value⟩ := entry
    obtain ⟨hname, before, after, hentries, hbefore⟩ := List.find?_eq_some_iff_append.1 hfind
    simp only [decide_eq_true_eq] at hname
    subst hname
    cases value with
    | other encoding => simp [hfind] at h
    | logs value =>
      simp only [hfind, Option.some.injEq] at h
      subst h
      refine ⟨before, after, hentries, fun result => ?_⟩
      have hsorted := d.sorted
      rw [hentries, List.map_append, List.map_cons, List.pairwise_append,
        List.pairwise_cons] at hsorted
      have hafter : ∀ entry ∈ after, entry.1 ≠ "logs" := fun entry hentry =>
        (hsorted.2.1.1 entry.1 (List.mem_map_of_mem hentry)).ne'
      have hbefore' : ∀ entry ∈ before, entry.1 ≠ "logs" := fun entry hentry => by
        simpa using hbefore entry hentry
      show d.entries.map (replaceLogs result) = _
      rw [hentries, List.map_append, List.map_cons, map_replaceLogs hbefore',
        map_replaceLogs hafter, replaceLogs, if_pos rfl]

/-- **The encoding around the log does not depend on the log**, or there is none. -/
theorem marshal_frame {d : Diagnostic} {logs : LogResult} (h : d.logs = some logs) :
    (d.marshal = none ∧ ∀ result, (d.setLogs result).marshal = none) ∨
      ∃ front back : Bytes, d.marshal = some (front ++ logs.marshal ++ back) ∧
        ∀ result, (d.setLogs result).marshal = some (front ++ result.marshal ++ back) := by
  obtain ⟨before, after, hentries, hset⟩ := exists_entries h
  simp only [marshal, hentries, hset]
  cases hbefore : before.mapM marshalEntry with
  | none => simp [List.mapM_append, hbefore]
  | some first =>
    cases hafter : after.mapM marshalEntry with
    | none => simp [List.mapM_append, hbefore, hafter]
    | some last =>
      obtain ⟨front, back, hframe⟩ := commaSeparated_frame first last
      right
      refine ⟨utf8 "\x7b" ++ front ++ quote (utf8 "logs") ++ utf8 ":", back ++ utf8 "\x7d", ?_⟩
      simp [List.mapM_append, hbefore, hafter, marshalEntry, DiagnosticValue.marshal, hframe]

/-! ## The longest log that fits -/

section Lines

variable {d : Diagnostic} {logs : LogResult} {limit : ℕ}

/-- With fewer lines it fits as well. -/
theorem fits_newest_mono (h : d.logs = some logs) {m n : ℕ} (hmn : m ≤ n)
    (hfits : Fits limit (d.setLogs (logs.newest n)).marshal) :
    Fits limit (d.setLogs (logs.newest m)).marshal := by
  rcases marshal_frame h with ⟨-, hnone⟩ | ⟨front, back, -, hsome⟩
  · obtain ⟨body, hbody, -⟩ := hfits
    exact nomatch (hnone _).symm.trans hbody
  · obtain ⟨body, hbody, hle⟩ := hfits
    obtain rfl := Option.some.inj ((hsome _).symm.trans hbody)
    refine ⟨_, hsome _, ?_⟩
    have hmono := monotone_newest logs hmn
    simp only [List.length_append] at hle hmono ⊢
    omega

theorem truncatedTo_suffix {kept : List Bytes} (h : kept <:+ logs.lines) :
    logs.truncatedTo kept = logs.newest kept.length := by
  rw [LogResult.newest, ← List.suffix_iff_eq_drop.1 h]

/-- What the loop and the check after it leave: the log of the greatest length that fits, short of
the whole log, or the error where not even the empty log fits. -/
theorem encodeDiagnostic_lines {budget : Int} {full : Bytes} (hlogs : d.logs = some logs)
    (hlines : logs.lines ≠ []) (hfull : d.marshal = some full)
    (hover : effectiveBudget budget < full.length) :
    (∃ n body, d.encodeDiagnostic budget = .ok body ∧ n < logs.lines.length ∧
      (d.setLogs (logs.newest n)).marshal = some body ∧ body.length ≤ effectiveBudget budget ∧
      ∀ m < logs.lines.length,
        Fits (effectiveBudget budget) (d.setLogs (logs.newest m)).marshal → m ≤ n) ∨
    (d.encodeDiagnostic budget = .error .exceedsLimit ∧
      ¬ Fits (effectiveBudget budget) (d.setLogs (logs.newest 0)).marshal) := by
  have hpos := List.length_pos_iff.2 hlines
  rcases marshal_frame hlogs with ⟨hnone, -⟩ | ⟨front, back, -, hsome⟩
  · exact nomatch hfull.symm.trans hnone
  have hfits : ∀ n, Fits (effectiveBudget budget) (d.setLogs (logs.newest n)).marshal ↔
      (front ++ (logs.newest n).marshal ++ back).length ≤ effectiveBudget budget := fun n => by
    simp [Fits, hsome]
  have hcandidate : ∀ n, d.candidateFits logs (effectiveBudget budget) n = .ok (decide
      ((front ++ (logs.newest n).marshal ++ back).length ≤ effectiveBudget budget)) := fun n => by
    simp only [candidateFits, hsome, found, ok_bind]
    rfl
  obtain ⟨n, hn, -, hhigh, hor, hmax⟩ := bisect_spec hcandidate
    (fun m n hmn hle => (hfits m).1 (fits_newest_mono hlogs hmn ((hfits n).2 hle)))
    (Nat.zero_le (logs.lines.length - 1))
  have hresult : d.encodeDiagnostic budget =
      (failIf (effectiveBudget budget < (front ++ (logs.newest n).marshal ++ back).length)
        EncodeError.exceedsLimit >>= fun _ => .ok (front ++ (logs.newest n).marshal ++ back)) := by
    simp only [encodeDiagnostic, hfull, found, ok_bind, if_neg (not_le.2 hover), hlogs,
      failIf_of_not hpos.ne', hn, hsome]
    rfl
  by_cases hle : (front ++ (logs.newest n).marshal ++ back).length ≤ effectiveBudget budget
  · left
    refine ⟨n, _, ?_, by omega, hsome _, hle, fun m hm hm' => hmax m (by omega) ((hfits m).1 hm')⟩
    rw [hresult, failIf_of_not (not_lt.2 hle), ok_bind]
  · right
    obtain rfl : n = 0 := hor.resolve_right hle
    exact ⟨by rw [hresult, failIf_of (not_le.1 hle), error_bind], fun h => hle ((hfits 0).1 h)⟩

/-- The newest `n` lines are the longest that fit if no greater number does. -/
theorem longest_newest {n : ℕ} (hn : n < logs.lines.length)
    (hfits : Fits limit (d.setLogs (logs.newest n)).marshal)
    (hmax : ∀ m < logs.lines.length, Fits limit (d.setLogs (logs.newest m)).marshal → m ≤ n) :
    Longest (fun lines => lines ≠ logs.lines ∧
        Fits limit (d.setLogs (logs.truncatedTo lines)).marshal)
      logs.lines (logs.lines.drop (logs.lines.length - n)) := by
  have hsuffix := List.drop_suffix (logs.lines.length - n) logs.lines
  refine ⟨hsuffix, ⟨fun heq => ?_, hfits⟩, fun zs hzs ⟨hne, hz⟩ => ?_⟩
  · have hlength := congrArg List.length heq
    rw [List.length_drop] at hlength
    omega
  · have hproper : zs.length < logs.lines.length :=
      lt_of_le_of_ne hzs.length_le fun hlength => hne (hzs.eq_of_length hlength)
    rw [truncatedTo_suffix hzs] at hz
    refine List.suffix_of_suffix_length_le hzs hsuffix ?_
    rw [List.length_drop]
    have hle := hmax _ hproper hz
    omega

end Lines

section Encode

variable {d : Diagnostic} {budget : Int}

theorem encodeDiagnostic_of_fits {body : Bytes} (hbody : d.marshal = some body)
    (hle : body.length ≤ effectiveBudget budget) : d.encodeDiagnostic budget = .ok body := by
  simp only [encodeDiagnostic, hbody, found, ok_bind, if_pos hle]
  rfl

theorem encodeDiagnostic_of_none (budget : Int) (h : d.marshal = none) :
    d.encodeDiagnostic budget = .error .marshal := by
  simp only [encodeDiagnostic, h, found, error_bind]

/-- Without lines to leave out, an encoding over the budget is refused. -/
theorem encodeDiagnostic_of_noLines {full : Bytes} (hfull : d.marshal = some full)
    (hover : effectiveBudget budget < full.length)
    (hlines : ∀ logs, d.logs = some logs → logs.lines = []) :
    d.encodeDiagnostic budget = .error .exceedsLimit ∧ d.withoutLines = d := by
  simp only [encodeDiagnostic, hfull, found, ok_bind, if_neg (not_le.2 hover), withoutLines]
  cases hlogs : d.logs with
  | none => exact ⟨rfl, rfl⟩
  | some logs =>
    have hnil := hlines logs hlogs
    exact ⟨by simp only [hnil, List.length_nil, failIf_of, error_bind], if_pos hnil⟩

end Encode

theorem not_fits_none {limit : ℕ} : ¬ Fits limit none := fun ⟨_, hbody, _⟩ => nomatch hbody

theorem marshal_withoutLines {d : Diagnostic} (h : d.marshal = none) :
    d.withoutLines.marshal = none := by
  unfold withoutLines
  cases hlogs : d.logs with
  | none => exact h
  | some logs =>
    rcases marshal_frame hlogs with ⟨-, hnone⟩ | ⟨front, back, hsome, -⟩
    · dsimp only
      split_ifs
      · exact h
      · exact hnone _
    · exact nomatch h.symm.trans hsome

/-- **Diagnostics are truncated optimally.** What is returned fits the budget. It is the full
encoding if that fits, and otherwise the one with the longest proper suffix of the lines that fits
when it is marked as truncated. The call fails exactly when neither the full encoding nor the one
without lines fits. -/
theorem encodeDiagnostic_optimal (d : Diagnostic) (budget : Int) :
    (∀ body, d.encodeDiagnostic budget = .ok body → body.length ≤ effectiveBudget budget) ∧
    (∀ body, d.marshal = some body → body.length ≤ effectiveBudget budget →
      d.encodeDiagnostic budget = .ok body) ∧
    (∀ logs, d.logs = some logs → ¬ Fits (effectiveBudget budget) d.marshal → ∀ body,
      d.encodeDiagnostic budget = .ok body ↔
        ∃ kept, Longest (fun lines => lines ≠ logs.lines ∧
            Fits (effectiveBudget budget) (d.setLogs (logs.truncatedTo lines)).marshal)
          logs.lines kept ∧ (d.setLogs (logs.truncatedTo kept)).marshal = some body) ∧
    ((∃ e, d.encodeDiagnostic budget = .error e) ↔
      ¬ Fits (effectiveBudget budget) d.marshal ∧
      ¬ Fits (effectiveBudget budget) d.withoutLines.marshal) := by
  cases hfull : d.marshal with
  | none =>
    have hresult := encodeDiagnostic_of_none budget hfull
    refine ⟨fun body hok => ?_, fun body hbody => ?_, fun logs hlogs _ body => ?_, ?_⟩
    · exact nomatch hresult.symm.trans hok
    · exact nomatch hbody
    · constructor
      · intro hok
        exact nomatch hresult.symm.trans hok
      · rintro ⟨kept, -, hbody⟩
        rcases marshal_frame hlogs with ⟨-, hnone⟩ | ⟨front, back, hsome, -⟩
        · exact nomatch (hnone _).symm.trans hbody
        · exact nomatch hfull.symm.trans hsome
    · rw [marshal_withoutLines hfull]
      exact iff_of_true ⟨_, hresult⟩ ⟨not_fits_none, not_fits_none⟩
  | some full =>
    by_cases hle : full.length ≤ effectiveBudget budget
    · have hresult := encodeDiagnostic_of_fits hfull hle
      have hfits : Fits (effectiveBudget budget) (some full) := ⟨full, rfl, hle⟩
      refine ⟨fun body hok => ?_, fun body hbody _ => ?_, fun logs _ hnot => absurd hfits hnot, ?_⟩
      · obtain rfl := Except.ok.inj (hresult.symm.trans hok)
        exact hle
      · obtain rfl := Option.some.inj hbody
        exact hresult
      · refine iff_of_false ?_ fun h => h.1 hfits
        rintro ⟨e, herror⟩
        exact nomatch hresult.symm.trans herror
    · have hover := not_le.1 hle
      have hnot : ¬ Fits (effectiveBudget budget) (some full) := by
        rintro ⟨body, hbody, hfit⟩
        obtain rfl := Option.some.inj hbody
        exact hle hfit
      by_cases hlines : ∀ logs, d.logs = some logs → logs.lines = []
      · obtain ⟨hresult, hwithout⟩ := encodeDiagnostic_of_noLines hfull hover hlines
        refine ⟨fun body hok => (nomatch hresult.symm.trans hok),
          fun body hbody hfit => (hnot ⟨body, hbody, hfit⟩).elim, fun logs hlogs _ body => ?_, ?_⟩
        · refine iff_of_false (fun hok => nomatch hresult.symm.trans hok) ?_
          rintro ⟨kept, hkept, -⟩
          have hnil := hlines logs hlogs
          have hsuffix := hkept.suffix
          rw [hnil, List.suffix_nil] at hsuffix
          exact hkept.holds.1 (hsuffix.trans hnil.symm)
        · rw [hwithout, hfull]
          exact iff_of_true ⟨_, hresult⟩ ⟨hnot, hnot⟩
      · obtain ⟨logs, hlogs⟩ := not_forall.1 hlines
        obtain ⟨hlogs, hnonempty⟩ := Classical.not_imp.1 hlogs
        have hwithout : d.withoutLines = d.setLogs (logs.newest 0) := by
          simp only [withoutLines, hlogs, if_neg hnonempty, LogResult.newest, Nat.sub_zero,
            List.drop_length]
        rw [hwithout]
        rcases encodeDiagnostic_lines hlogs hnonempty hfull hover with
          ⟨n, body, hresult, hn, hbody, hfit, hmax⟩ | ⟨hresult, hempty⟩
        · have hlongest := longest_newest hn ⟨body, hbody, hfit⟩ hmax
          refine ⟨fun body' hok => ?_, fun body' hbody' hfit' => (hnot ⟨body', hbody', hfit'⟩).elim,
            fun logs' hlogs' _ body' => ?_, ?_⟩
          · obtain rfl := Except.ok.inj (hresult.symm.trans hok)
            exact hfit
          · obtain rfl := Option.some.inj (hlogs.symm.trans hlogs')
            constructor
            · intro hok
              obtain rfl := Except.ok.inj (hresult.symm.trans hok)
              exact ⟨_, hlongest, hbody⟩
            · rintro ⟨kept, hkept, hbody'⟩
              obtain rfl := hlongest.unique hkept
              obtain rfl := Option.some.inj (hbody.symm.trans hbody')
              exact hresult
          · refine iff_of_false ?_ fun h =>
              h.2 (fits_newest_mono hlogs (Nat.zero_le n) ⟨body, hbody, hfit⟩)
            rintro ⟨e, herror⟩
            exact nomatch hresult.symm.trans herror
        · refine ⟨fun body hok => (nomatch hresult.symm.trans hok),
            fun body hbody hfit => (hnot ⟨body, hbody, hfit⟩).elim,
            fun logs' hlogs' _ body => ?_, ?_⟩
          · obtain rfl := Option.some.inj (hlogs.symm.trans hlogs')
            refine iff_of_false (fun hok => nomatch hresult.symm.trans hok) ?_
            rintro ⟨kept, hkept, -⟩
            have hfit := hkept.holds.2
            rw [truncatedTo_suffix hkept.suffix] at hfit
            exact hempty (fits_newest_mono hlogs (Nat.zero_le _) hfit)
          · exact iff_of_true ⟨_, hresult⟩ ⟨hnot, hempty⟩

end Diagnostic

end Bifurcation.Daemon
