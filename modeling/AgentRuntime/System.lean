import AgentRuntime.Reconcile
import AgentRuntime.Lib.Runs

/-!
# The whole runtime as a state machine

Any number of API callers, workers and reconcilers act on one database. An
`Op` is one committed operation of one of them; `perform` runs it and `step`
lets some time pass first, so the clock never goes back. An operation that
fails is rolled back and leaves the database as it was.

Contexts handed out by `claim` are kept in `issued`, in the order of the
claims; a worker operation names its context by its place in that list,
which is how `heartbeat` updates the very context its caller holds.
-/

namespace AgentRuntime

open Keyed Fencing

/-! ## What an executor writes -/

/-- A write the executor makes to the run it holds. -/
inductive ExecWrite
  | clearErrorCode
  | requestCancel
  | markRunning
  | setStarted
  | addActiveElapsed (ms : Nat)
  | reserve
  | addStep (step : AgentStep)
  | setStep (stepId status : String) (errorCode : Option String)
  | autoRetry (stepId : String)
  | saveCheckpoint (key : String) (state : CheckpointState)
  | purgeCheckpoints
  | stepChanged
  deriving DecidableEq, Repr

namespace AgentRun

def clearErrorCode (run : AgentRun) : AgentRun :=
  { run with errorCode := none }

def markRunning (run : AgentRun) : AgentRun :=
  { run with status := .running, statusVersion := run.statusVersion + 1 }

def setStarted (run : AgentRun) (now : Time) : AgentRun :=
  { run with startedAt := run.startedAt.or (some now) }

def addActiveElapsed (run : AgentRun) (ms : Nat) : AgentRun :=
  { run with activeElapsedMs := run.activeElapsedMs + ms }

/-- `PolicyEngine.reserve` serialises its budget check through the status
version. -/
def bumpVersion (run : AgentRun) : AgentRun :=
  { run with statusVersion := run.statusVersion + 1 }

end AgentRun

/-- `CheckpointStore.save`. -/
def saveCheckpoint (db : Db) (now : Time) (run : AgentRun) (ctx : LeaseContext) (key : String)
    (state : CheckpointState) : Db :=
  if db.checkpoints.any (fun c => decide (c.runId = run.runId ∧ c.checkpointKey = key)) then
    { db with checkpoints := db.checkpoints.map (fun c =>
        if c.runId = run.runId ∧ c.checkpointKey = key then
          { c with
            privacyVersion := ctx.privacyVersion
            state := state
            expiresAt := run.runDeadlineAt }
        else c) }
  else
    { db with checkpoints := db.checkpoints ++ [{
        runId := run.runId
        checkpointKey := key
        privacyVersion := ctx.privacyVersion
        state := state
        createdAt := now
        expiresAt := run.runDeadlineAt }] }

/-- One write of the executor, made under its lease. -/
def execWrite (db : Db) (now : Time) (run : AgentRun) (ctx : LeaseContext) :
    ExecWrite → Result Db
  | .clearErrorCode => pure { db with runs := db.runs.put run.clearErrorCode }
  | .requestCancel => pure { db with runs := db.runs.put (run.requestCancel now) }
  | .markRunning =>
    if run.status = .running then pure db
    else appendCallbackEvent { db with runs := db.runs.put run.markRunning } run.markRunning
      "run_started"
  | .setStarted => pure { db with runs := db.runs.put (run.setStarted now) }
  | .addActiveElapsed ms => pure { db with runs := db.runs.put (run.addActiveElapsed ms) }
  | .reserve => pure { db with runs := db.runs.put run.bumpVersion }
  | .addStep step =>
    -- an executor adds steps of its own run only
    if step.runId = run.runId then pure { db with steps := db.steps ++ [step] } else pure db
  | .setStep stepId status errorCode =>
    pure { db with steps := db.steps.map (fun s =>
      if s.stepId = stepId then { s with status := status, errorCode := errorCode } else s) }
  | .autoRetry stepId =>
    pure { db with steps := db.steps.map (fun s =>
      if s.stepId = stepId then { s with stepAttempt := s.stepAttempt + 1 } else s) }
  | .saveCheckpoint key state => pure (saveCheckpoint db now run ctx key state)
  | .purgeCheckpoints =>
    pure { db with checkpoints := db.checkpoints.filter (fun c => c.runId ≠ run.runId) }
  | .stepChanged => appendCallbackEvent { db with runs := db.runs.put run } run "step_changed"

/-! ## Operations -/

/-- A context handed out by a claim. -/
structure Issued where
  runId : String
  ctx : LeaseContext
  deriving DecidableEq, Repr

/-- The authoritative authorization version of a run, where one is
configured. -/
abbrev Resolver := Option (AgentRun → Option Int)

/-- One committed operation; the worker operations name their context by its
index among the issued ones. -/
inductive Op
  | register (definitions : List AgentDefinition)
  | create (runId : String) (command : CreateRunCommand) (callerId tenantId : String)
      (authorizationVersion : Int)
  | start (resolver : Resolver) (runId callerId : String) (expected : Option Nat)
  | cancel (runId callerId : String)
  | purge (runId callerId : String)
  | retry (resolver : Resolver) (runId callerId : String) (allowAuditor : Bool)
      (expected : Option Nat)
  | approve (runId callerId decision : String) (expectedVersion : Nat)
  | claim (runId owner : String) (leaseSeconds : Nat)
  | heartbeat (i : Nat) (leaseSeconds : Nat)
  | write (i : Nat) (w : ExecWrite)
  | finish (i : Nat) (status : RunStatus) (errorCode : Option String)
  | releaseForDrain (i : Nat)
  | finishAfterInvalidBoundary (i : Nat)
  | pauseForHuman (i : Nat) (timeoutSeconds : Int)
  | reapExpired
  | repairRun (runId : String) (resolver : Resolver)
  | repairDeadLetter (k : Nat)
  | deliver (k : Nat) (status : OutboxStatus) (leaseExpiresAt : Option Time)

/-- The database, the clock, and the contexts workers hold. -/
structure Sys where
  db : Db := {}
  clock : Time := 0
  issued : List Issued := []

/-- The dispatcher moves an outbox row along. -/
def deliver (db : Db) (k : Nat) (status : OutboxStatus) (leaseExpiresAt : Option Time) : Db :=
  let move (e : RuntimeOutboxEvent) := { e with status := status, leaseExpiresAt := leaseExpiresAt }
  { db with outbox := db.outbox.modify k move }

/-- Run a worker operation under the `i`-th context. -/
def withContext (db : Db) (issued : List Issued) (i : Nat)
    (act : Issued → Result (Db × List Issued)) : Result (Db × List Issued) :=
  match issued[i]? with
  | none => pure (db, issued)
  | some held => act held

/-- The effect of an operation at `now`; `limits` are those the API is
configured with. -/
def perform (limits : AdmissionLimits) (db : Db) (now : Time) (issued : List Issued) :
    Op → Result (Db × List Issued)
  | .register definitions => pure ({ db with definitions := definitions }, issued)
  | .create runId command callerId tenantId authorizationVersion => do
    let db' ← AgentRunService.create limits db now runId command callerId tenantId
      authorizationVersion
    pure (db', issued)
  | .start resolver runId callerId expected => do
    let db' ← AgentRunService.start limits db now resolver runId callerId expected
    pure (db', issued)
  | .cancel runId callerId => do
    let db' ← AgentRunService.cancel limits db now runId callerId
    pure (db', issued)
  | .purge runId callerId => do
    let db' ← AgentRunService.purge db now runId callerId
    pure (db', issued)
  | .retry resolver runId callerId allowAuditor expected => do
    let db' ← AgentRunService.retry limits db now resolver runId callerId allowAuditor expected
    pure (db', issued)
  | .approve runId callerId decision expectedVersion => do
    let db' ← AgentRunService.approve limits db now runId callerId decision expectedVersion
    pure (db', issued)
  | .claim runId owner leaseSeconds => do
    let (db', ctx?) ← LeaseService.claim db now leaseSeconds runId owner
    match ctx? with
    | none => pure (db', issued)
    | some ctx => pure (db', issued ++ [⟨runId, ctx⟩])
  | .heartbeat i leaseSeconds =>
    withContext db issued i fun held =>
      match LeaseService.heartbeat db now leaseSeconds held.runId held.ctx with
      | (db', ctx', _) => pure (db', issued.set i ⟨held.runId, ctx'⟩)
  | .write i w =>
    withContext db issued i fun held =>
      match db.runs.find? held.runId with
      | none => pure (db, issued)
      | some run =>
        if run.OwnedBy held.ctx ∧ run.executionAttempt = held.ctx.executionAttempt then do
          let db' ← execWrite db now run held.ctx w
          pure (db'.commit, issued)
        else pure (db, issued)
  | .finish i status errorCode =>
    withContext db issued i fun held => do
      let (db', _) ← LeaseService.finish db now ⟨held.runId, status, errorCode⟩ held.ctx
      pure (db', issued)
  | .releaseForDrain i =>
    withContext db issued i fun held =>
      pure ((LeaseService.releaseForDrain db now held.runId held.ctx).1, issued)
  | .finishAfterInvalidBoundary i =>
    withContext db issued i fun held => do
      let (db', _) ← LeaseService.finishAfterInvalidBoundary db now held.runId held.ctx
      pure (db', issued)
  | .pauseForHuman i timeoutSeconds =>
    withContext db issued i fun held => do
      let (db', _) ← LeaseService.pauseForHuman db now held.runId held.ctx timeoutSeconds
      pure (db', issued)
  | .reapExpired => do
    let (db', _) ← LeaseService.reapExpired db now
    pure (db'.commit, issued)
  | .repairRun runId resolver =>
    match db.runs.find? runId with
    | none => pure (db, issued)
    | some run => do
      let (db', _) ← ReconciliationService.repairRun db now now resolver run
      pure (db'.commit, issued)
  | .repairDeadLetter k =>
    match db.outbox[k]? with
    | none => pure (db, issued)
    | some event =>
      if event.isRunDispatch = true ∧ event.status = .deadLetter then do
        let db' ← ReconciliationService.repairDeadLetter db now event
        pure (db'.commit, issued)
      else pure (db, issued)
  | .deliver k status leaseExpiresAt => pure (deliver db k status leaseExpiresAt, issued)

/-- An operation and the time that passed since the one before. -/
structure Event where
  elapsed : Time := 0
  op : Op

/-- One step of the system; a failed operation is rolled back. -/
def step (limits : AdmissionLimits) (s : Sys) (e : Event) : Sys :=
  match perform limits s.db (s.clock + e.elapsed) s.issued e.op with
  | .ok (db, issued) => { db := db, clock := s.clock + e.elapsed, issued := issued }
  | .error _ => { s with clock := s.clock + e.elapsed }

/-- The state after the events of `es` from an empty database. -/
def reach (limits : AdmissionLimits) (es : List Event) : Sys :=
  Runs.run (step limits) {} es

theorem step_cases (limits : AdmissionLimits) (s : Sys) (e : Event) :
    (∃ db issued, perform limits s.db (s.clock + e.elapsed) s.issued e.op = .ok (db, issued) ∧
      step limits s e = { db := db, clock := s.clock + e.elapsed, issued := issued }) ∨
    step limits s e = { s with clock := s.clock + e.elapsed } := by
  unfold step
  rcases h : perform limits s.db (s.clock + e.elapsed) s.issued e.op with err | ⟨db, issued⟩
  · exact Or.inr rfl
  · exact Or.inl ⟨db, issued, rfl, rfl⟩

theorem step_ok {limits : AdmissionLimits} {s : Sys} {e : Event} {db : Db}
    {issued : List Issued}
    (h : perform limits s.db (s.clock + e.elapsed) s.issued e.op = .ok (db, issued)) :
    step limits s e = { db := db, clock := s.clock + e.elapsed, issued := issued } := by
  unfold step
  rw [h]

@[simp] theorem clock_step (limits : AdmissionLimits) (s : Sys) (e : Event) :
    (step limits s e).clock = s.clock + e.elapsed := by
  rcases step_cases limits s e with ⟨_, _, _, h⟩ | h <;> rw [h]

/-! ## A package to run with -/

/-- A registered package with one node that must not be repeated and one
that may. -/
def samplePackage : AgentDefinition :=
  { agentId := "memoir"
    version := "1.0.0"
    definitionJson := { workflowNodes := [
      { nodeId := "draft", nodeType := "model", safeToRerun := some false },
      { nodeId := "publish", nodeType := "tool", safeToRerun := some true }] }
    packageDigest := "sha256:1"
    contractVersion := "1"
    status := .active }

def sampleCommand (mode : StartMode) : CreateRunCommand :=
  { agentId := "memoir", agentVersion := "1.0.0", startMode := mode }

/-- An operation `t` seconds after the one before. -/
def after (t : Nat) (op : Op) : Event := ⟨seconds t, op⟩

/-- The package is registered, a run is created and a worker claims it. -/
def claimedRun : List Event :=
  [after 0 (.register [samplePackage]),
   after 0 (.create "run-1" (sampleCommand .auto) "caller" "tenant" 1),
   after 0 (.claim "run-1" "worker-1" 90)]

end AgentRuntime
