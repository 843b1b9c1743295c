import Bifurcation.Panel.IdentityCalls

/-!
# Requests in flight

Any number of requests run through the account calls at once. A request that waits holds what it
read; between its check and its commit the segments of the others run in any order. `World` keeps,
beside the tables, what is held, what was drawn and what was committed.

Ids come from `randomUUID` and tokens from `randomBytes`, so an event is `Fresh` when it draws
none that was drawn before.
-/

namespace Bifurcation.Panel.Identity

/-- A request that waits. -/
structure Flight where
  held : Held
  /-- The tables when it was checked. -/
  checked : Accounts

structure World where
  tables : Accounts
  flights : ℕ → Option Flight
  /-- The flow ids drawn so far. -/
  flowIds : List String
  /-- The hashes of the tokens drawn so far. -/
  tokens : List String
  /-- What was committed so far, the last first. -/
  log : List Done

/-- The panel before anybody has an account. -/
def World.start (panel : Database) : World where
  tables := .empty panel
  flights _ := none
  flowIds := []
  tokens := []
  log := []

inductive Event where
  /-- A request arrives and is checked. -/
  | arrive (request : ℕ) (call : Call) (now : Int)
  /-- What a request waits for arrives. -/
  | resume (request : ℕ) (answer : Answer) (draw : Draw) (now : Int)
  | perform (call : SyncCall) (draw : Draw) (now : Int)

namespace World

variable (vault : Vault)

/-- The transaction an event runs, and what it draws. -/
def transaction (w : World) : Event → Option (Draw × Result)
  | .arrive .. => none
  | .resume request answer draw now =>
    (w.flights request).map fun flight => (draw, commit vault flight.held answer draw now w.tables)
  | .perform call draw now => some (draw, perform vault call draw now w.tables)

/-- What an event commits. -/
def does (w : World) (e : Event) : Option Done :=
  (w.transaction vault e).bind fun x => x.2.toOption.map Prod.fst

/-- The world after a transaction: one that throws writes nothing. -/
def settle (w : World) (draw : Draw) (result : Result) : World :=
  { w with
    flowIds := draw.flowId :: w.flowIds
    tokens := tokenHash draw.token :: w.tokens
    tables := result.toOption.elim w.tables Prod.snd
    log := (result.toOption.map Prod.fst).toList ++ w.log }

/-- The requests that wait after an event. A number that is in use is not taken again. -/
def flightsAfter (w : World) : Event → ℕ → Option Flight
  | .arrive request call now => fun r =>
    if r = request ∧ (w.flights request).isNone then
      (check call now w.tables).2.toOption.map fun held => ⟨held, w.tables⟩
    else w.flights r
  | .resume request .. => fun r => if r = request then none else w.flights r
  | .perform .. => w.flights

/-- The tables after the check of an event. -/
def checkedTables (w : World) : Event → Accounts
  | .arrive request call now =>
    if (w.flights request).isNone then (check call now w.tables).1 else w.tables
  | _ => w.tables

def step (w : World) (e : Event) : World :=
  match w.transaction vault e with
  | some (draw, result) => { w.settle draw result with flights := w.flightsAfter e }
  | none => { w with tables := w.checkedTables e, flights := w.flightsAfter e }

/-- The transaction of an event draws nothing that was drawn before. -/
def Fresh (w : World) (e : Event) : Prop :=
  ∀ draw result, w.transaction vault e = some (draw, result) →
    draw.flowId ∉ w.flowIds ∧ tokenHash draw.token ∉ w.tokens

end World

theorem World.fresh_arrive (vault : Vault) (w : World) (request : ℕ) (call : Call) (now : Int) :
    w.Fresh vault (.arrive request call now) := fun _ _ h => by cases h

theorem World.fresh_resume {vault : Vault} {w : World} {request : ℕ} {answer : Answer}
    {draw : Draw} {now : Int} (hflowId : draw.flowId ∉ w.flowIds)
    (htoken : tokenHash draw.token ∉ w.tokens) :
    w.Fresh vault (.resume request answer draw now) := by
  intro draw' result h
  obtain ⟨flight, -, heq⟩ := Option.map_eq_some_iff.1 h
  rw [← (Prod.mk.inj heq).1]
  exact ⟨hflowId, htoken⟩

/-- The worlds a run of fresh events leads to. -/
inductive Leads (vault : Vault) (w : World) : World → Prop where
  | refl : Leads vault w w
  | step {w' : World} (e : Event) (h : Leads vault w w') (hfresh : w'.Fresh vault e) :
      Leads vault w (w'.step vault e)

/-- The worlds of all runs. -/
def Reachable (vault : Vault) (w : World) : Prop := ∃ panel, Leads vault (.start panel) w

variable {vault : Vault} {w w' : World} {e : Event}

/-- What holds at the start and is preserved by every fresh event holds in all runs. -/
theorem Reachable.induction {I : World → Prop} (h : Reachable vault w)
    (hstart : ∀ panel, I (.start panel))
    (hstep : ∀ w e, I w → w.Fresh vault e → I (w.step vault e)) : I w := by
  obtain ⟨panel, h⟩ := h
  induction h with
  | refl => exact hstart panel
  | step e _ hfresh ih => exact hstep _ e ih hfresh

/-! ## What one event does -/

/-- An event commits one call, or changes rate limits only. -/
inductive Stepped (vault : Vault) (w : World) (e : Event) : World → Prop where
  | committed {draw : Draw} {done : Done} {s' : Accounts}
      (transaction : w.transaction vault e = some (draw, .ok (done, s'))) :
      Stepped vault w e
        { tables := s', flights := w.flightsAfter e, flowIds := draw.flowId :: w.flowIds
          tokens := tokenHash draw.token :: w.tokens, log := done :: w.log }
  | unchanged {s' : Accounts} {flowIds tokens : List String} (tables : SameButLimits w.tables s')
      (hflowIds : ∀ id ∈ w.flowIds, id ∈ flowIds) (htokens : ∀ hash ∈ w.tokens, hash ∈ tokens)
      (hdoes : w.does vault e = none) :
      Stepped vault w e
        { tables := s', flights := w.flightsAfter e, flowIds, tokens, log := w.log }

theorem World.stepped (vault : Vault) (w : World) (e : Event) :
    Stepped vault w e (w.step vault e) := by
  unfold World.step
  cases htransaction : w.transaction vault e with
  | none =>
    have hdoes : w.does vault e = none := by simp [World.does, htransaction]
    have htables : SameButLimits w.tables (w.checkedTables e) := by
      unfold World.checkedTables
      split
      · split_ifs
        · exact check_frame _ _ _
        · exact .refl _
      · exact .refl _
    exact .unchanged htables (fun _ h => h) (fun _ h => h) hdoes
  | some x =>
    obtain ⟨draw, result⟩ := x
    cases result with
    | ok result =>
      obtain ⟨done, s'⟩ := result
      exact .committed htransaction
    | error err =>
      have hdoes : w.does vault e = none := by simp [World.does, htransaction, Except.toOption]
      exact .unchanged (.refl _) (fun _ h => List.mem_cons_of_mem _ h)
        (fun _ h => List.mem_cons_of_mem _ h) hdoes

/-- The effect of the call an event commits. -/
theorem World.transaction_effect {draw : Draw} {done : Done} {s' : Accounts}
    (h : w.transaction vault e = some (draw, .ok (done, s'))) : Effect draw done w.tables s' := by
  cases e with
  | arrive request call now => cases h
  | resume request answer draw' now =>
    obtain ⟨flight, -, heq⟩ := Option.map_eq_some_iff.1 h
    obtain ⟨rfl, hcommit⟩ := Prod.mk.inj heq
    exact commit_effect hcommit
  | perform call draw' now =>
    obtain ⟨rfl, hperform⟩ := Prod.mk.inj (Option.some.inj h)
    exact perform_effect hperform

theorem World.does_eq_some {done : Done} (h : w.does vault e = some done) :
    ∃ draw s', w.transaction vault e = some (draw, .ok (done, s')) := by
  simp only [World.does, Option.bind_eq_some_iff, Option.map_eq_some_iff, Prod.exists] at h
  obtain ⟨draw, result, htransaction, done', s', hresult, rfl⟩ := h
  cases result with
  | error err => cases hresult
  | ok x =>
    obtain rfl := Option.some.inj hresult
    exact ⟨draw, s', htransaction⟩

/-! ## Data for example runs -/

def exampleVault : Vault where
  secretsOf _ := some ⟨[], []⟩

def exampleDraw (token flowId : String) : Draw where
  userId := "root"
  flowId
  token
  secrets _ := ""

def exampleAnswer (hash : String) : Answer where
  hash
  valid := true
  challenge := ""
  verification := none
  registration := none

end Bifurcation.Panel.Identity
