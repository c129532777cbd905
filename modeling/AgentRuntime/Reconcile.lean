import AgentRuntime.RunService

/-!
# The reconciler

`ReconciliationService.run_once`: reap, rebuild the admission buckets, go
once through the runs and repair each, fail the queued runs whose dispatch
is a dead letter, commit. Every repair of a run is a conditional update on
the row as it was loaded.

`repairRun` is the body of the loop over the runs, a chain of repairs of
which the first that applies ends the turn. The housekeeping of idempotency
records, model usage and tool calls works on other tables and is left out,
as are the counters of the report.
-/

namespace AgentRuntime

open Keyed Fencing

namespace AgentRun

/-- What `_terminate` writes. -/
def terminate (run : AgentRun) (now : Time) (status : RunStatus) (errorCode : String) :
    AgentRun :=
  { run with
    status := status
    dispatchState := .finished
    statusVersion := run.statusVersion + 1
    errorCode := some errorCode
    finishedAt := some now }

/-- What `_requeue_timeout_fallback` writes. -/
def requeueFallback (run : AgentRun) (now : Time) : AgentRun :=
  { run with
    dispatchState := .queued
    queuedAt := some now
    waitingExpiresAt := none
    errorCode := some "WAITING_HUMAN_FALLBACK"
    statusVersion := run.statusVersion + 1 }

/-- A cancellation request that also leaves an error code. -/
def requestCancelWith (run : AgentRun) (now : Time) (errorCode : String) : AgentRun :=
  { run with cancelRequestedAt := some now, errorCode := some errorCode }

end AgentRun

/-- `_is_expired`. -/
def isExpired (value : Option Time) (current : Time) : Bool :=
  match value with
  | none => false
  | some t => decide (t ≤ current)

namespace ReconciliationService

/-- The row is still as it was loaded. -/
def Unchanged (loaded run : AgentRun) : Prop :=
  run.status = loaded.status ∧ run.dispatchState = loaded.dispatchState ∧
    run.statusVersion = loaded.statusVersion

instance (loaded run : AgentRun) : Decidable (Unchanged loaded run) := by
  unfold Unchanged; infer_instance

/-- `_terminate`. -/
def terminate (db : Db) (current : Time) (loaded : AgentRun) (status : RunStatus)
    (errorCode : String) : Result (Db × Bool) :=
  match db.runs.find? loaded.runId with
  | none => pure (db, false)
  | some run =>
    if Unchanged loaded run then do
      let run' := run.terminate current status errorCode
      let db₁ ← transitionRun {} { db with runs := db.runs.put run' } run'
        (some loaded.dispatchState) .finished
      let db₂ ← appendCallback db₁ run' status
      pure (db₂, true)
    else pure (db, false)

/-- `_requeue_timeout_fallback`. -/
def requeueTimeoutFallback (db : Db) (current : Time) (loaded : AgentRun) :
    Result (Db × Bool) :=
  match db.runs.find? loaded.runId with
  | none => pure (db, false)
  | some run =>
    if run.status = loaded.status ∧ run.dispatchState = .finished ∧
        run.statusVersion = loaded.statusVersion then do
      let run' := run.requeueFallback current
      let db' ← transitionRun {} { db with runs := db.runs.put run' } run'
        (some .finished) .queued
      pure (appendRunDispatch db' run.runId "waiting_human_timeout_fallback", true)
    else pure (db, false)

/-- The update that asks the worker of a claimed run to stop. -/
def requestStop (db : Db) (loaded : AgentRun) (write : AgentRun → AgentRun) : Db × Bool :=
  match db.runs.find? loaded.runId with
  | none => (db, false)
  | some run =>
    if Unchanged loaded run ∧ run.dispatchState = .claimed ∧ run.cancelRequestedAt = none then
      ({ db with runs := db.runs.put (write run) }, true)
    else (db, false)

/-- `_apply_execution_timeout`. -/
def applyExecutionTimeout (db : Db) (current : Time) (run : AgentRun) (errorCode : String) :
    Result (Db × Bool) :=
  if run.status.isTerminal then pure (db, false)
  else if run.dispatchState = .claimed then
    pure (requestStop db run (·.requestCancelWith current errorCode))
  else if run.dispatchState = .finished ∧ run.status ≠ .waitingHuman then pure (db, false)
  else terminate db current run .failed errorCode

/-- `_repair_run_deadline`. -/
def repairRunDeadline (db : Db) (current : Time) (run : AgentRun) : Result (Db × Bool) :=
  if current < run.runDeadlineAt then pure (db, false)
  else applyExecutionTimeout db current run "RUN_DEADLINE_EXCEEDED"

/-- The active time of the run has reached the limit of its plan. -/
def activeLimitReached (db : Db) (run : AgentRun) : Bool :=
  match (db.plan? run.runId).bind (·.stopConditions.maxRunSeconds) with
  | none => false
  | some limit => decide (0 ≤ limit ∧ limit * 1000 ≤ (run.activeElapsedMs : Int))

/-- `_repair_active_elapsed_timeout`. -/
def repairActiveElapsedTimeout (db : Db) (current : Time) (run : AgentRun) :
    Result (Db × Bool) :=
  if activeLimitReached db run then
    applyExecutionTimeout db current run "ACTIVE_TIME_LIMIT_EXCEEDED"
  else pure (db, false)

/-- The authoritative authorization version differs from the run's. -/
def authorizationStale (resolver : Option (AgentRun → Option Int)) (run : AgentRun) : Bool :=
  match resolver with
  | none => false
  | some current =>
    match current run with
    | none => false
    | some v => decide (v ≠ run.authorizationVersion)

/-- `_repair_authorization_changed`. -/
def repairAuthorizationChanged (db : Db) (current : Time)
    (resolver : Option (AgentRun → Option Int)) (run : AgentRun) : Result (Db × Bool) :=
  if ¬ authorizationStale resolver run then pure (db, false)
  else if run.Unattended then terminate db current run .cancelled "AUTHORIZATION_CHANGED"
  else if run.dispatchState = .claimed ∧ run.cancelRequestedAt = none then
    pure (requestStop db run (·.requestCancel current))
  else pure (db, false)

/-- `_repair_revoked_definition`. -/
def repairRevokedDefinition (db : Db) (current : Time) (run : AgentRun) : Result (Db × Bool) :=
  if packageExecutable db run then pure (db, false)
  else if run.Unattended then terminate db current run .cancelled "PACKAGE_REVOKED"
  else if run.dispatchState = .claimed ∧ run.cancelRequestedAt = none then
    pure (requestStop db run (·.requestCancel current))
  else pure (db, false)

/-- `_repair_held_timeout`. -/
def repairHeldTimeout (db : Db) (current : Time) (run : AgentRun) : Result (Db × Bool) :=
  if run.status = .pending ∧ run.dispatchState = .held ∧ isExpired run.heldExpiresAt current then
    terminate db current run .cancelled "HELD_TIMEOUT"
  else pure (db, false)

/-- The run has been queued for longer than its plan allows. -/
def queueTtlReached (db : Db) (current : Time) (run : AgentRun) : Bool :=
  match (db.plan? run.runId).bind (·.stopConditions.queueTtlSeconds), run.queuedAt with
  | some ttl, some queuedAt => decide (0 < ttl ∧ queuedAt + seconds ttl.toNat ≤ current)
  | _, _ => false

/-- `_repair_queued_timeout`. -/
def repairQueuedTimeout (db : Db) (current : Time) (run : AgentRun) : Result (Db × Bool) :=
  if run.status = .pending ∧ run.dispatchState = .queued ∧ queueTtlReached db current run then
    terminate db current run .failed "QUEUE_TIMEOUT"
  else pure (db, false)

/-! ## Missing dispatches -/

/-- A `run_dispatch` event of the run. -/
def isDispatchOf (runId : String) (e : RuntimeOutboxEvent) : Bool :=
  e.isRunDispatch && decide (e.aggregateId = runId)

/-- The flushed dispatch events of a run, oldest first. -/
def dispatchEvents (db : Db) (runId : String) : List RuntimeOutboxEvent :=
  db.outbox.filter (isDispatchOf runId)

/-- The dispatcher still has the event in hand. -/
def delivering (current : Time) (e : RuntimeOutboxEvent) : Bool :=
  decide (e.status = .delivering ∧ heldAfter e.leaseExpiresAt current)

/-- A delivered event, or one whose delivery lapsed, is made pending again;
its identity and payload stay. -/
def replayed (e : RuntimeOutboxEvent) : RuntimeOutboxEvent :=
  { e with status := .pending, leaseExpiresAt := none }

/-- Replay the last event that satisfies `p`. -/
def replayLast (p : RuntimeOutboxEvent → Bool) : List RuntimeOutboxEvent → List RuntimeOutboxEvent
  | [] => []
  | e :: rest => if p e = true ∧ rest.any p = false then replayed e :: rest
    else e :: replayLast p rest

/-- `_repair_missing_run_dispatch`. -/
def repairMissingRunDispatch (db : Db) (current : Time) (run : AgentRun) : Db × Bool :=
  if run.status = .pending ∧ run.dispatchState = .queued then
    let events := dispatchEvents db run.runId
    if events.any (fun e => decide (e.status = .pending ∨ e.status = .deadLetter)) then (db, false)
    else if events.any (delivering current) then (db, false)
    else if events = [] then
      (appendRunDispatch db run.runId "reconciliation_missing_dispatch", true)
    else
      ({ db with outbox := replayLast (isDispatchOf run.runId) db.outbox }, true)
  else (db, false)

/-! ## Human wait -/

/-- `_timeout_action`. -/
def timeoutAction (db : Db) (run : AgentRun) : Option String :=
  ((db.plan? run.runId).bind (·.fallbackPolicy.waitingHumanTimeoutAction)).filter
    (fun a => a ∈ ["fallback", "cancelled", "failed"])

/-- `_has_valid_fallback_target`. -/
def hasValidFallbackTarget (db : Db) (run : AgentRun) : Bool :=
  match db.plan? run.runId with
  | none => false
  | some plan =>
    match plan.fallbackPolicy.waitingHumanFallbackNode with
    | none => false
    | some target => decide (target ∈ plan.steps.map (·.nodeId))

/-- `_timeout_terminal_status`. -/
def timeoutTerminalStatus (db : Db) (run : AgentRun) : RunStatus :=
  if timeoutAction db run = some "cancelled" then .cancelled else .failed

/-- `_repair_waiting_human_timeout`. -/
def repairWaitingHumanTimeout (db : Db) (current : Time) (run : AgentRun) :
    Result (Db × Bool) :=
  if run.status = .waitingHuman ∧ run.dispatchState = .finished ∧
      isExpired run.waitingExpiresAt current then
    if timeoutAction db run = some "fallback" then
      if hasValidFallbackTarget db run then requeueTimeoutFallback db current run
      else terminate db current run (timeoutTerminalStatus db run) "FALLBACK_NODE_INVALID"
    else terminate db current run (timeoutTerminalStatus db run) "WAITING_HUMAN_TIMEOUT"
  else pure (db, false)

/-! ## One pass -/

/-- The next repair is tried only when the one before did nothing. -/
def orElse (first : Result (Db × Bool)) (next : Db → Result (Db × Bool)) :
    Result (Db × Bool) := do
  let (db, repaired) ← first
  if repaired then pure (db, true) else next db

/-- The purge at the head of the turn. -/
def repairPurge (db : Db) (now : Time) (run : AgentRun) : Result (Db × Bool) :=
  if run.privacyState = .purgeRequested ∧ run.dispatchState = .finished then
    AgentRunService.completePurge db now run.runId
  else pure (db, false)

/-- One turn of the loop over the runs, on the row as loaded. -/
def repairRun (db : Db) (current now : Time) (resolver : Option (AgentRun → Option Int))
    (run : AgentRun) : Result (Db × Bool) :=
  orElse (repairPurge db now run) fun db =>
  orElse (repairRunDeadline db current run) fun db =>
  orElse (repairActiveElapsedTimeout db current run) fun db =>
  orElse (repairAuthorizationChanged db current resolver run) fun db =>
  orElse (repairRevokedDefinition db current run) fun db =>
  orElse (repairHeldTimeout db current run) fun db =>
  orElse (repairQueuedTimeout db current run) fun db =>
  orElse (pure (repairMissingRunDispatch db current run)) fun db =>
  repairWaitingHumanTimeout db current run

/-- The loop over the runs. -/
def repairRuns (current now : Time) (resolver : Option (AgentRun → Option Int)) :
    Db → List AgentRun → Result Db
  | db, [] => pure db
  | db, run :: rest => do
    let (db', _) ← repairRun db current now resolver run
    repairRuns current now resolver db' rest

/-- One dead dispatch event. -/
def repairDeadLetter (db : Db) (current : Time) (event : RuntimeOutboxEvent) : Result Db :=
  match db.runs.find? event.aggregateId with
  | none => pure db
  | some run =>
    if run.status = .pending ∧ run.dispatchState = .queued then do
      let (db', _) ← terminate db current run .failed "DISPATCH_FAILED"
      pure db'
    else pure db

def repairDeadLetters (current : Time) : Db → List RuntimeOutboxEvent → Result Db
  | db, [] => pure db
  | db, event :: rest => do
    let db' ← repairDeadLetter db current event
    repairDeadLetters current db' rest

/-! ## Admission buckets -/

/-- The number of a scope's runs in a dispatch state. -/
def expectedCount (runs : List AgentRun) (s : Scope) (d : DispatchState) : Nat :=
  runs.countP (fun run => decide (run.dispatchState = d ∧ s ∈ run.scopes))

/-- `_repair_admission_bucket` for one bucket of the session; `stored` are
the flushed buckets. A bucket this transaction has already moved fails the
version check and is read back from the store. -/
def reconcileBucket (runs : List AgentRun) (stored : BucketTable) (b : AdmissionBucket) :
    AdmissionBucket :=
  if b.heldCount = expectedCount runs b.scope .held ∧
      b.queuedCount = expectedCount runs b.scope .queued ∧
      b.runningCount = expectedCount runs b.scope .claimed then b
  else match stored.find? b.scope with
    | none => b
    | some old =>
      if old.version = b.version then
        { b with
          heldCount := expectedCount runs b.scope .held
          queuedCount := expectedCount runs b.scope .queued
          runningCount := expectedCount runs b.scope .claimed
          version := b.version + 1 }
      else old

theorem scope_reconcileBucket (runs : List AgentRun) (stored : BucketTable)
    (b : AdmissionBucket) : (reconcileBucket runs stored b).scope = b.scope := by
  unfold reconcileBucket
  split
  · rfl
  · split
    · rfl
    next old hold =>
      split
      · rfl
      · exact Table.key_of_find? hold

/-- `_reconcile_admission_buckets`. -/
def reconcileAdmissionBuckets (stored : BucketTable) (db : Db) : Db :=
  let buckets := db.buckets.mapRows (reconcileBucket db.runs.rows stored)
    (scope_reconcileBucket db.runs.rows stored)
  { db with buckets := buckets }

/-- `run_once`, the lease kept throughout; `now` is the clock the reaper and
the purge read for themselves. -/
def runOnce (db : Db) (current now : Time) (resolver : Option (AgentRun → Option Int)) :
    Result Db := do
  let (db₁, _) ← LeaseService.reapExpired db now
  let db₂ := reconcileAdmissionBuckets db.buckets db₁
  let db₃ ← repairRuns current now resolver db₂ db₂.runs.rows
  let db₄ ← repairDeadLetters current db₃
    (db₃.outbox.filter (fun e => e.isRunDispatch && decide (e.status = .deadLetter)))
  pure db₄.commit

end ReconciliationService

end AgentRuntime
