import AgentRuntime.System

/-!
# What an operation can do to a run

Every invariant of the system is about rows, so the services are inverted
once and for all here. A `Move` is one way a row may change, with the
conditions under which the code makes it, the admission slot it shifts and
the callback it appends; `settle` carries a move out on the database. A
`Turn` on a run is a move of that run, its creation, or something no ledger
sees. `perform_turns` says that every operation is a sequence of turns on
different runs, and `perform_runStep` what that means for one run: at most
one move.

The ways back into the queue, and the claim, carry a `Cause`: which
operation made it, on which row. `Causes` says it in terms of the state
before the operation.
-/

namespace AgentRuntime

open Keyed Fencing

/-- The moves whose operation matters later: the claim, and the ways a run
gets back into the queue. -/
inductive Cause
  | claim | retry | approve | reap | fallback
  deriving DecidableEq, Repr

/-- The admission slot a move shifts, and the limits it is checked
against. -/
abbrev Shift := Option (AdmissionLimits × DispatchState × DispatchState)

/-- One change of the row `r`. -/
inductive Move (limits : AdmissionLimits) (now : Time) (causes : Cause → AgentRun → Prop)
    (r : AgentRun) : AgentRun → Shift → Option String → Prop
  | start (hd : r.dispatchState = .held) (hs : r.status = .pending)
      (hp : r.privacyState = .active) (hc : r.cancelRequestedAt = none) :
      Move limits now causes r (r.start now) (some (limits, .held, .queued)) none
  | requestCancel (h : ¬ r.Unattended) :
      Move limits now causes r (r.requestCancel now) none none
  | cancelNow (h : r.Unattended) :
      Move limits now causes r (r.cancelNow now) (some (limits, r.dispatchState, .finished))
        (some "run_cancelled")
  | requestPurge (h : r.privacyState = .active) :
      Move limits now causes r (r.requestPurge now) none none
  | purge (h : r.privacyState = .purgeRequested) :
      Move limits now causes r (r.purge now) none none
  | retry (hs : r.status = .failed ∨ r.status = .partialSucceeded)
      (hn : r.manualRetryCount < 3) (hp : r.privacyState = .active) (hc : causes .retry r) :
      Move limits now causes r (r.retry now) (some (limits, .finished, .queued)) none
  | approve (hs : r.status = .waitingHuman) (hd : r.dispatchState = .finished)
      (hc : causes .approve r) (errorCode : Option String) :
      Move limits now causes r (r.decideQueued now errorCode)
        (some (limits, .finished, .queued)) none
  | reject (hs : r.status = .waitingHuman) (hd : r.dispatchState = .finished) :
      Move limits now causes r r.rejectFailed none (some "run_failed")
  | claim (h : r.Claimable) (hc : causes .claim r) (leaseSeconds : Nat) (owner : String) :
      Move limits now causes r (r.claimBy now leaseSeconds owner)
        (some ({}, .queued, .claimed)) none
  | renew (hd : r.dispatchState = .claimed) (hl : heldAfter r.leaseExpiresAt now) (t : Time) :
      Move limits now causes r (r.leaseUntil t) none none
  | drain (hd : r.dispatchState = .claimed) :
      Move limits now causes r (r.leaseUntil now) none none
  | finish (hd : r.dispatchState = .claimed) (status : RunStatus) (event : String)
      (he : terminalCallbackEvent status = .ok event) (errorCode : Option String) :
      Move limits now causes r (r.endWith now status errorCode)
        (some ({}, .claimed, .finished)) (some event)
  | pause (hd : r.dispatchState = .claimed) (t : Time) :
      Move limits now causes r (r.pauseUntil t) (some ({}, .claimed, .finished))
        (some "waiting_human")
  | reap (hd : r.dispatchState = .claimed) (hl : r.LeaseExpired now) (hc : causes .reap r) :
      Move limits now causes r (r.reap now) (some ({}, .claimed, .queued)) none
  | terminate (h : r.Unattended) (status : RunStatus) (event : String)
      (he : terminalCallbackEvent status = .ok event) (errorCode : String) :
      Move limits now causes r (r.terminate now status errorCode)
        (some ({}, r.dispatchState, .finished)) (some event)
  | fallback (hs : r.status = .waitingHuman) (hd : r.dispatchState = .finished)
      (hc : causes .fallback r) :
      Move limits now causes r (r.requeueFallback now) (some ({}, .finished, .queued)) none
  | stop (hd : r.dispatchState = .claimed) (errorCode : String) :
      Move limits now causes r (r.requestCancelWith now errorCode) none none
  | clearErrorCode (hd : r.dispatchState = .claimed) :
      Move limits now causes r r.clearErrorCode none none
  | markRunning (hd : r.dispatchState = .claimed) (hs : r.status ≠ .running) :
      Move limits now causes r r.markRunning none (some "run_started")
  | setStarted (hd : r.dispatchState = .claimed) :
      Move limits now causes r (r.setStarted now) none none
  | addActiveElapsed (hd : r.dispatchState = .claimed) (ms : Nat) :
      Move limits now causes r (r.addActiveElapsed ms) none none
  | bumpVersion (hd : r.dispatchState = .claimed) :
      Move limits now causes r r.bumpVersion none none
  | stepChanged (hd : r.dispatchState = .claimed) :
      Move limits now causes r r none (some "step_changed")

variable {limits : AdmissionLimits} {now : Time} {causes : Cause → AgentRun → Prop}

theorem Move.runId_eq {r r' : AgentRun} {shift : Shift} {event : Option String}
    (h : Move limits now causes r r' shift event) : r'.runId = r.runId := by
  cases h <;> rfl

theorem Move.scopes_eq {r r' : AgentRun} {shift : Shift} {event : Option String}
    (h : Move limits now causes r r' shift event) : r'.scopes = r.scopes := by
  cases h <;> rfl

/-- Write the row and shift its slot. -/
def shiftSlot (db : Db) (run : AgentRun) : Shift → Result Db
  | none => pure { db with runs := db.runs.put run }
  | some (l, old, new) => transitionRun l { db with runs := db.runs.put run } run (some old) new

/-- Append the callback, if there is one. -/
def announce (db : Db) (run : AgentRun) : Option String → Result Db
  | none => pure db
  | some event => appendCallbackEvent db run event

/-- Carry a move out: write the row, shift the slot, append the callback. -/
def settle (db : Db) (run : AgentRun) (shift : Shift) (event : Option String) : Result Db := do
  let db₁ ← shiftSlot db run shift
  announce db₁ run event

/-- The callbacks the outbox carries, flushed or not. -/
def deliveries (db : Db) : List RuntimeOutboxEvent :=
  (db.outbox ++ db.outboxNew).filter (fun e => !e.isRunDispatch)

/-- What the outbox carries for one run: number and name of each callback. -/
def deliveriesOf (db : Db) (q : String) : List OutboxPayload :=
  ((deliveries db).filter (fun e => decide (e.aggregateId = q))).map (·.payload)

/-- Some rows are wiped, those of `q` among them or as they should be before. -/
theorem wipe_rows {α κ : Type} {key : α → κ} {wiped : α → α} {P : α → Prop} {gone : κ → Prop}
    [DecidablePred gone] {rows : List α} {q : κ}
    (hwiped : ∀ a, P (wiped a)) (hq : gone q ∨ ∀ a ∈ rows, key a = q → P a) :
    ∀ a ∈ rows.map (fun a => if gone (key a) then wiped a else a), key a = q → P a := by
  intro a ha hrun
  obtain ⟨before, hmem, rfl⟩ := List.mem_map.mp ha
  by_cases hgone : gone (key before)
  · rw [if_pos hgone]
    exact hwiped before
  · rw [if_neg hgone] at hrun ⊢
    rcases hq with hq | hq
    · rw [hrun] at hgone
      exact absurd hq hgone
    · exact hq before hmem hrun

/-- No checkpoint of the run is there, and its steps have no summaries. -/
structure Veiled (db : Db) (q : String) : Prop where
  checkpoints : ∀ c ∈ db.checkpoints, c.runId ≠ q
  steps : ∀ s ∈ db.steps, s.runId = q → s.inputSummary = none ∧ s.outputSummary = none

theorem Veiled.of_eq {db db' : Db} {q : String} (h : Veiled db q)
    (hcheckpoints : db'.checkpoints = db.checkpoints) (hsteps : db'.steps = db.steps) :
    Veiled db' q :=
  ⟨fun c hc => h.checkpoints c (hcheckpoints ▸ hc), fun s hs => h.steps s (hsteps ▸ hs)⟩

/-- No worker holds the run. -/
def Unheld (db : Db) (q : String) : Prop :=
  ∀ run, db.runs.find? q = some run → run.dispatchState ≠ .claimed

/-- Two databases that differ in nothing the ledgers record, nor in the private
data of a run that nobody holds. -/
structure SameLedger (db db' : Db) : Prop where
  runs : db'.runs = db.runs
  buckets : db'.buckets = db.buckets
  callbackEvents : db'.callbackEvents = db.callbackEvents
  deliveriesOf : ∀ q, deliveriesOf db' q = deliveriesOf db q
  admissionLog : db'.admissionLog = db.admissionLog
  plans : db'.plans = db.plans
  veiled : ∀ q, Unheld db q → Veiled db q → Veiled db' q

theorem SameLedger.refl (db : Db) : SameLedger db db :=
  ⟨rfl, rfl, rfl, fun _ => rfl, rfl, rfl, fun _ _ h => h⟩

theorem SameLedger.unheld {db db' : Db} (h : SameLedger db db') {q : String}
    (hq : Unheld db q) : Unheld db' q := by
  intro run hfind
  rw [h.runs] at hfind
  exact hq run hfind

theorem SameLedger.trans {a b c : Db} (h₁ : SameLedger a b) (h₂ : SameLedger b c) :
    SameLedger a c :=
  ⟨h₂.runs.trans h₁.runs, h₂.buckets.trans h₁.buckets,
    h₂.callbackEvents.trans h₁.callbackEvents,
    fun q => (h₂.deliveriesOf q).trans (h₁.deliveriesOf q),
    h₂.admissionLog.trans h₁.admissionLog, h₂.plans.trans h₁.plans,
    fun q hq hveiled => h₂.veiled q (h₁.unheld hq) (h₁.veiled q hq hveiled)⟩

theorem sameLedger_commit (db : Db) : SameLedger db db.commit := by
  refine ⟨rfl, rfl, rfl, fun q => ?_, rfl, rfl, fun q _ h => h.of_eq rfl rfl⟩
  simp [AgentRuntime.deliveriesOf, deliveries, Db.commit]

theorem sameLedger_dispatch (db : Db) (runId reason : String) :
    SameLedger db (appendRunDispatch db runId reason) := by
  refine ⟨rfl, rfl, rfl, fun q => ?_, rfl, rfl, fun q _ h => h.of_eq rfl rfl⟩
  simp [AgentRuntime.deliveriesOf, deliveries, appendRunDispatch,
    RuntimeOutboxEvent.isRunDispatch]

/-- A turn on the run `id`. -/
inductive Turn (limits : AdmissionLimits) (now : Time) (causes : Cause → AgentRun → Prop)
    (id : String) (db db' : Db) : Prop
  | idle (h : SameLedger db db')
  | create (run : AgentRun) (command : CreateRunCommand) (definition : AgentDefinition)
      (policy : PackagePolicy) (callerId tenantId : String) (authorizationVersion : Int)
      (hrun : run = newRun id command definition policy callerId tenantId
        authorizationVersion now)
      (runs : RunTable) (hins : db.runs.insert? run = some runs) (db₁ : Db)
      (hadm : transitionRun limits { db with runs := runs } run none run.dispatchState = .ok db₁)
      (plan : AgentPlan) (hplan : createPlanFromDefinition id definition.definitionJson = .ok plan)
      (h : SameLedger { db₁ with plans := db₁.plans ++ [plan] } db')
  | move (r r' : AgentRun) (shift : Shift) (event : Option String)
      (hfind : db.runs.find? id = some r) (hmove : Move limits now causes r r' shift event)
      (db₁ : Db) (hset : settle db r' shift event = .ok db₁) (h : SameLedger db₁ db')
      (hgone : r.privacyState ≠ .purged → r'.privacyState = .purged →
        Unheld db' id ∧ Veiled db' id)

/-- Turns on the runs of a list, one after the other. -/
inductive Turns (limits : AdmissionLimits) (now : Time) (causes : Cause → AgentRun → Prop) :
    List String → Db → Db → Prop
  | nil {db db' : Db} (h : SameLedger db db') : Turns limits now causes [] db db'
  | cons {id : String} {ids : List String} {db db₁ db' : Db}
      (h : Turn limits now causes id db db₁) (rest : Turns limits now causes ids db₁ db') :
      Turns limits now causes (id :: ids) db db'

theorem Turn.one {id : String} {db db' : Db} (h : Turn limits now causes id db db') :
    Turns limits now causes [id] db db' :=
  .cons h (.nil (.refl db'))

theorem Turn.same {id : String} {db db' db'' : Db} (h : Turn limits now causes id db db')
    (hs : SameLedger db' db'') : Turn limits now causes id db db'' := by
  cases h with
  | idle h => exact .idle (h.trans hs)
  | create run command definition policy callerId tenantId av hrun runs hins db₁ hadm plan hplan h =>
    exact .create run command definition policy callerId tenantId av hrun runs hins db₁ hadm plan
      hplan (h.trans hs)
  | move r r' shift event hfind hmove db₁ hset h hgone =>
    refine .move r r' shift event hfind hmove db₁ hset (h.trans hs) fun hnot hpurged => ?_
    obtain ⟨hunheld, hveiled⟩ := hgone hnot hpurged
    exact ⟨hs.unheld hunheld, hs.veiled id hunheld hveiled⟩

theorem Turns.same {ids : List String} {db db' db'' : Db}
    (h : Turns limits now causes ids db db') (hs : SameLedger db' db'') :
    Turns limits now causes ids db db'' := by
  induction h with
  | nil h => exact .nil (h.trans hs)
  | cons h _ ih => exact .cons h (ih hs)

end AgentRuntime
