import AgentRuntime.LoopClock

/-!
# The workflow executor

`WorkflowExecutor.run` and `resume`: one attempt at the plan of a run. The
nodes of the static graph are visited in the order of the plan; a node is
passed over, refused by a check, or given to its runner, and where the runner
succeeds the node is completed: its step, the active time and a checkpoint
are written.

What the executor meets at a node (the answers of the lease, of the
authorization and of the worker, the waits of the runner and how it ends) is
a `NodeTurn`, and any is allowed. A visit is one step of `Executing`, so that
an attempt is a run of steps over the nodes.

Mirroring notes:
- `completed_node_ids` is a set, kept as a list without duplicates; the order
  in which a checkpoint lists it is not read by anyone.
- A step row is written when its node is left, with the status it then has.
  A worker that dies inside a node leaves a running row.
- The readings of the monotonic clock are exact; rounding a difference of
  floats is left out. `elapsedMs` cuts it to milliseconds, as `int` does.
- `run` is the row as the attempt reads it again, so that of its own writes
  only the active time is in it.
-/

namespace AgentRuntime

open Keyed Runs

/-! ## The static graph -/

namespace StaticWorkflowGraph

/-- `_NODE_ID`. -/
def isNodeId (nodeId : String) : Bool :=
  match nodeId.toList with
  | [] => false
  | c :: cs => c.isLower && decide (cs.length ≤ 79) &&
      cs.all (fun c => c.isLower || c.isDigit || decide (c = '_'))

/-- Every node declares the edge to the next one, or none. -/
def linear : List PlanNode → Bool
  | [] => true
  | [node] => decide (node.nextNodes = [])
  | node :: next :: rest =>
    decide (node.nextNodes = [] ∨ node.nextNodes = [next.nodeId]) && linear (next :: rest)

/-- `build` and `ordered_nodes`: the nodes in the order of the plan, if they
form a path. -/
def orderedNodes (steps : List PlanNode) : Option (List PlanNode) :=
  if steps ≠ [] ∧ steps.all (fun node => isNodeId node.nodeId) = true ∧
      (steps.map (·.nodeId)).Nodup ∧ linear steps = true then some steps
  else none

theorem orderedNodes_eq_some {steps nodes : List PlanNode} (h : orderedNodes steps = some nodes) :
    nodes = steps ∧ (steps.map (·.nodeId)).Nodup := by
  unfold orderedNodes at h
  split at h
  next hvalid =>
    cases h
    exact ⟨rfl, hvalid.2.2.1⟩
  · cases h

end StaticWorkflowGraph

/-! ## What an attempt meets -/

/-- A wait for a provider inside a node: the active time before it, its
length, and whether `record_active_elapsed` was allowed to write it. -/
structure ProviderWait where
  before : Time
  length : Time
  recorded : Bool

/-- The answers of the checks before a node, in their order. -/
structure NodeChecks where
  mayWrite : Bool := true
  authorizationChanged : Bool := false
  packageRevoked : Bool := false
  draining : Bool := false
  heartbeat : Bool := true
  mayStillWrite : Bool := true

/-- Why a bounded loop ends the attempt. -/
inductive LoopStop
  | policyInvalid | budgetProfileInvalid | budgetExhausted | runnerUnsupported
  | cancelRequested | authorizationChanged | packageRevoked | leaseInvalid | draining
  | bodyFailed | callContractViolated
  deriving DecidableEq, Repr

/-- How the runner ends. `refused` is a loop that does not come to its
runner, `returned` one that ends the attempt, and `crashed` a worker that
dies. -/
inductive NodeOutcome
  | completed (skipped waitingHuman degraded : Bool)
  | retriesSpent
  | raised
  | refused (reason : LoopStop)
  | returned (reason : LoopStop)
  | crashed

/-- What happens at a node. `toCheck` is the time up to the check of the
budget, `work` the time after the last wait up to the reading at the end of
the node, and `gap` the time from there to the next reading. -/
structure NodeTurn where
  toCheck : Time := 0
  checks : NodeChecks := {}
  stepId : String := ""
  waits : List ProviderWait := []
  outcome : NodeOutcome := .completed false false false
  owned : Bool := true
  drainingAfter : Bool := false
  artifactSaved : Bool := true
  work : Time := 0
  gap : Time := 0
  checkpointSaved : Bool := true
  paused : Bool := true

/-- How an attempt ends: with a result, or by an exception or the death of
its worker. -/
inductive AttemptEnd
  | returned (result : AgentRunResult)
  | lost
  deriving DecidableEq

/-- An attempt, between two nodes. `invoked`, `endedAt`, `boundary` and
`chargedAt` are for the proofs: the nodes that were given to their runner,
the node that ended the attempt, and the clock and the active time of the run
at the last boundary. -/
structure Executing where
  run : AgentRun
  skipping : Option String
  completedNodeIds : List String
  completedSteps : Nat
  degraded : Bool := false
  clock : Time
  activeStartedAt : Time
  writes : List ExecWrite := []
  ended : Option AttemptEnd := none
  invoked : List String := []
  endedAt : Option String := none
  boundary : Time
  chargedAt : Nat

namespace WorkflowExecutor

def cancelled (runId errorCode : String) : AgentRunResult :=
  { runId := runId, status := .cancelled, errorCode := some errorCode }

/-- `_draining_result`. -/
def drainingResult (runId : String) : AgentRunResult :=
  { runId := runId, status := .pending, errorCode := some "WORKFLOW_DRAINING" }

end WorkflowExecutor

open WorkflowExecutor

/-- The result a bounded loop returns early with. -/
def LoopStop.result (runId : String) : LoopStop → AgentRunResult
  | policyInvalid => fail runId "LOOP_POLICY_INVALID"
  | budgetProfileInvalid => fail runId "LOOP_BUDGET_PROFILE_INVALID"
  | budgetExhausted => fail runId "LOOP_BUDGET_EXHAUSTED"
  | runnerUnsupported => fail runId "LOOP_RUNNER_UNSUPPORTED"
  | cancelRequested => cancelled runId "CANCEL_REQUESTED"
  | authorizationChanged => cancelled runId "AUTHORIZATION_CHANGED"
  | packageRevoked => cancelled runId "PACKAGE_REVOKED"
  | leaseInvalid => fail runId "LEASE_CONTEXT_INVALID"
  | draining => drainingResult runId
  | bodyFailed => fail runId "LOOP_BODY_FAILED"
  | callContractViolated => fail runId "LOOP_MODEL_CALL_CONTRACT_VIOLATED"

/-- The first check that stops the attempt. -/
def NodeChecks.refusal (checks : NodeChecks) (runId : String) :
    Option (AgentRunResult × List ExecWrite) :=
  if checks.mayWrite = false then some (fail runId "LEASE_CONTEXT_INVALID", [])
  else if checks.authorizationChanged = true then
    some (cancelled runId "AUTHORIZATION_CHANGED", [.requestCancel])
  else if checks.packageRevoked = true then
    some (cancelled runId "PACKAGE_REVOKED", [.requestCancel])
  else if checks.draining = true then some (drainingResult runId, [])
  else if checks.heartbeat = false then some (fail runId "LEASE_CONTEXT_INVALID", [])
  else if checks.mayStillWrite = false then some (fail runId "LEASE_CONTEXT_INVALID", [])
  else none

namespace Executing

def emit (s : Executing) (writes : List ExecWrite) : Executing :=
  { s with writes := s.writes ++ writes }

/-- The active time goes up in the row. -/
def charge (s : Executing) (ms : Nat) : Executing :=
  { s with
    run := s.run.addActiveElapsed ms
    writes := s.writes ++ [.addActiveElapsed ms] }

def stop (s : Executing) (node : PlanNode) (result : AttemptEnd) : Executing :=
  { s with ended := some result, endedAt := some node.nodeId }

def failAt (s : Executing) (node : PlanNode) (errorCode : String) : Executing :=
  s.stop node (.returned (fail s.run.runId errorCode))

/-- A wait, and its time in the row. -/
def wait (s : Executing) (w : ProviderWait) : Executing :=
  let s := { s with clock := s.clock + w.before + w.length }
  if w.recorded = true then s.charge (w.length / 1000) else s

def waitAll (s : Executing) (waits : List ProviderWait) : Executing :=
  waits.foldl wait s

/-- The runner has the node, and waits. -/
def handOver (s : Executing) (node : PlanNode) (waits : List ProviderWait) : Executing :=
  { s.waitAll waits with invoked := s.invoked ++ [node.nodeId] }

end Executing

/-- A plan, the number of the attempt at it, and what the attempt meets at
the nodes. -/
structure AttemptContext where
  plan : AgentPlan
  executionAttempt : Nat
  turn : String → NodeTurn

namespace AttemptContext

variable (c : AttemptContext)

/-- The step row of a node. -/
def stepRow (s : Executing) (node : PlanNode) (status : String) (errorCode : Option String) :
    ExecWrite :=
  .addStep {
    stepId := (c.turn node.nodeId).stepId
    runId := s.run.runId
    stepName := node.nodeId
    stepType := node.nodeType
    status := status
    executionAttempt := c.executionAttempt
    errorCode := errorCode }

/-- The node is done: the counters, the active time since the last boundary
less what waits have recorded of this node, and the row. -/
def markDone (s : Executing) (node : PlanNode) (activeBefore : Nat) (skipped degraded : Bool) :
    Executing :=
  let turn := c.turn node.nodeId
  let reading := s.clock + turn.work
  let nodeElapsedMs := elapsedMs s.activeStartedAt reading
  let alreadyRecordedMs := s.run.activeElapsedMs - activeBefore
  let charged := s.charge (nodeElapsedMs - alreadyRecordedMs)
  { charged.emit [c.stepRow s node (if skipped then "skipped" else "succeeded") none] with
    completedSteps := s.completedSteps + 1
    completedNodeIds := s.completedNodeIds.insert node.nodeId
    degraded := s.degraded || degraded
    clock := reading + turn.gap
    activeStartedAt := reading + turn.gap
    boundary := reading
    chargedAt := charged.run.activeElapsedMs }

/-- `_safe_checkpoint_state`. -/
def checkpointState (s : Executing) (waitingHuman : Bool) : CheckpointState :=
  { completedSteps := s.completedSteps
    completedNodeIds := s.completedNodeIds
    resumeFromNodeId :=
      if waitingHuman then c.plan.fallbackPolicy.waitingHumanFallbackNode else none }

/-- What follows once the node is done: the checkpoint, and the reasons to
end the attempt here. -/
def afterDone (s : Executing) (node : PlanNode) (waitingHuman : Bool) : Executing :=
  let turn := c.turn node.nodeId
  if waitingHuman = true ∧ ∃ target ∈ c.plan.fallbackPolicy.waitingHumanFallbackNode,
      target ∉ c.plan.steps.map (·.nodeId) then
    s.failAt node "FALLBACK_NODE_INVALID"
  else
    let s := s.emit [.saveCheckpoint s!"attempt:{c.executionAttempt}:step:{s.completedSteps}"
      (c.checkpointState s waitingHuman)]
    if turn.drainingAfter = true then s.stop node (.returned (drainingResult s.run.runId))
    else if waitingHuman = true then
      let timeout := c.plan.stopConditions.approvalTtlSeconds.getD 86400
      if timeout ≤ 0 then s.failAt node "WAITING_HUMAN_TIMEOUT_INVALID"
      else if turn.paused = false then s.failAt node "WAITING_HUMAN_PAUSE_FAILED"
      else s.stop node (.returned { runId := s.run.runId, status := .waitingHuman })
    else s.emit [.stepChanged]

/-- The runner has returned. -/
def complete (s : Executing) (node : PlanNode) (activeBefore : Nat)
    (skipped waitingHuman degraded : Bool) : Executing :=
  let turn := c.turn node.nodeId
  if turn.owned = false then
    (s.emit [c.stepRow s node "running" none]).failAt node "LEASE_CONTEXT_INVALID"
  else if turn.artifactSaved = false then
    (s.emit [c.stepRow s node "failed" (some "ARTIFACT_WRITE_FAILED")]).failAt node
      "ARTIFACT_WRITE_FAILED"
  else if turn.checkpointSaved = false then
    -- the exception of `save` takes what was not committed with it
    (s.emit [c.stepRow s node "running" none]).stop node .lost
  else c.afterDone (c.markDone s node activeBefore skipped degraded) node waitingHuman

/-- The runner has raised: a node that may fail is passed over once the work
is published. -/
def raise (s : Executing) (node : PlanNode) : Executing :=
  let s := s.emit [c.stepRow s node "failed" (some "WORKFLOW_NODE_FAILED")]
  if node.optional = true ∧ "publish_document" ∈ s.completedNodeIds then
    { s with degraded := true, clock := s.clock + (c.turn node.nodeId).work }
  else s.failAt node "WORKFLOW_NODE_FAILED"

/-- A loop ends the attempt, and its step if it has failed. -/
def stopLoop (s : Executing) (node : PlanNode) (reason : LoopStop) : Executing :=
  let result := reason.result s.run.runId
  let row :=
    if result.status = .failed then c.stepRow s node "failed" result.errorCode
    else c.stepRow s node "running" none
  (s.emit [row]).stop node (.returned result)

/-- The node is given to its runner. -/
def invoke (s : Executing) (node : PlanNode) : Executing :=
  let turn := c.turn node.nodeId
  let waited := s.handOver node turn.waits
  match turn.outcome with
  | .refused reason => c.stopLoop s node reason
  | .returned reason => c.stopLoop waited node reason
  | .crashed => (waited.emit [c.stepRow s node "running" none]).stop node .lost
  | .retriesSpent =>
    (waited.emit [c.stepRow s node "failed" (some "AUTO_RETRY_LIMIT_EXCEEDED")]).failAt node
      "AUTO_RETRY_LIMIT_EXCEEDED"
  | .raised => c.raise waited node
  | .completed skipped waitingHuman degraded =>
    c.complete waited node s.run.activeElapsedMs skipped waitingHuman degraded

/-- The checks before the runner. -/
def check (s : Executing) (node : PlanNode) : Executing :=
  let turn := c.turn node.nodeId
  let s := { s with clock := s.clock + turn.toCheck }
  match assertCanContinue s.run {
      steps := s.completedSteps + 1
      activeElapsedMs := elapsedMs s.activeStartedAt s.clock } with
  | .error code => s.failAt node code
  | .ok () =>
    match turn.checks.refusal s.run.runId with
    | some (result, writes) => (s.emit writes).stop node (.returned result)
    | none => c.invoke s node

/-- A node at or after the place the attempt resumes from. -/
def enter (s : Executing) (node : PlanNode) : Executing :=
  if node.nodeId ∈ s.completedNodeIds then
    match node.safeToRerun with
    | none => s.failAt node "PLAN_LEGACY_DEFINITION"
    | some false => s
    | some true => c.check s node
  else c.check s node

/-- The body of the loop over the nodes. -/
def visit (s : Executing) (node : PlanNode) : Executing :=
  if s.ended.isSome = true then s
  else
    match s.skipping with
    | none => c.enter s node
    | some target => if node.nodeId = target then c.enter { s with skipping := none } node else s

end AttemptContext

/-! ## The attempt -/

/-- What an attempt meets before the first node. -/
structure Prologue where
  authorizationChanged : Bool := false
  packageRevoked : Bool := false
  mayWrite : Bool := true
  draining : Bool := false
  clock : Time := 0

namespace Executing

/-- The result of an attempt once its nodes are visited. -/
def result (s : Executing) : AttemptEnd :=
  s.ended.getD (.returned {
    runId := s.run.runId
    status := if s.degraded then .partialSucceeded else .succeeded })

/-- An attempt before its first node. -/
def start (run : AgentRun) (completed : List String) (target : Option String) (clock : Time) :
    Executing :=
  { run := run
    skipping := target
    completedNodeIds := completed
    completedSteps := completed.length
    clock := clock
    activeStartedAt := clock
    boundary := clock
    chargedAt := run.activeElapsedMs }

/-- An attempt that ends before its first node. -/
def refused (s : Executing) (result : AgentRunResult) (writes : List ExecWrite) : Executing :=
  { s.emit writes with ended := some (.returned result) }

end Executing

/-- The fallback is what the run asks for and the plan and the checkpoint
agree on. -/
def fallbackTarget (run : AgentRun) (plan : AgentPlan) (resumeFromNodeId : Option String) :
    Option (Option String) :=
  if run.errorCode = some "WAITING_HUMAN_FALLBACK" then
    match resumeFromNodeId with
    | none => none
    | some target =>
      if plan.fallbackPolicy.waitingHumanFallbackNode = some target ∧
          target ∈ plan.steps.map (·.nodeId) then some (some target)
      else none
  else some none

/-- The checks before the first node. -/
def Prologue.refusal (p : Prologue) (runId : String) : Option (AgentRunResult × List ExecWrite) :=
  if p.authorizationChanged = true then
    some (cancelled runId "AUTHORIZATION_CHANGED", [.requestCancel])
  else if p.packageRevoked = true then
    some (cancelled runId "PACKAGE_REVOKED", [.requestCancel])
  else if p.mayWrite = false then some (fail runId "LEASE_CONTEXT_INVALID", [])
  else if p.draining = true then some (drainingResult runId, [])
  else none

namespace AttemptContext

variable (c : AttemptContext)

/-- `_execute`, for a run and a plan that are there. -/
def execute (p : Prologue) (run : AgentRun) (completedNodeIds : List String)
    (resumeFromNodeId : Option String) : Executing :=
  let completed := completedNodeIds.dedup
  match StaticWorkflowGraph.orderedNodes c.plan.steps with
  | none =>
    (Executing.start run completed none p.clock).refused (fail run.runId "STATIC_GRAPH_INVALID") []
  | some nodes =>
    match fallbackTarget run c.plan resumeFromNodeId with
    | none =>
      (Executing.start run completed none p.clock).refused
        (fail run.runId "FALLBACK_NODE_INVALID") []
    | some target =>
      let s := (Executing.start run completed target p.clock).emit
        (if target.isSome = true then [.clearErrorCode] else [])
      match p.refusal run.runId with
      | some (result, writes) => s.refused result writes
      | none => Runs.run c.visit (s.emit [.markRunning, .setStarted]) nodes

/-- `run`. -/
def fresh (p : Prologue) (run : AgentRun) : Executing :=
  c.execute p run [] none

/-- `resume`, from what `load_latest` gives. -/
def resume (p : Prologue) (run : AgentRun) (loaded : Option CheckpointState) : Executing :=
  match loaded with
  | none =>
    (Executing.start run [] none p.clock).refused (fail run.runId "CHECKPOINT_NOT_RESUMABLE") []
  | some state =>
    if state.extraKeys ≠ [] then
      (Executing.start run [] none p.clock).refused (fail run.runId "CHECKPOINT_STATE_INVALID")
        [.purgeCheckpoints]
    else c.execute p run state.completedNodeIds state.resumeFromNodeId

end AttemptContext

end AgentRuntime
