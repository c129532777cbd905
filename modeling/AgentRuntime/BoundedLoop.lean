import AgentRuntime.GatewayCall

/-!
# The bounded loop

A loop node runs its body until the body says it is done, as long as the
budget the loop inherits from its run lasts. `loopStep` is one turn of
`_run_loop_iterations`: the safety checks, what is left of the budget, the
body, and the count of the body's model calls. A turn that closes the loop
is the last one; the turns after it change nothing.

What the body does is an oracle: the calls it makes to the model gateway,
one after the other, and then its result, or none where it raised or its
result was malformed.
-/

namespace AgentRuntime

open Keyed

/-- `LoopIterationResult.outcome`. -/
inductive LoopOutcome
  | goesOn | complete | incomplete | failed
  deriving DecidableEq, Repr

structure LoopIterationResult where
  outcome : LoopOutcome
  reasonCode : Option String := none
  outputCount : Nat := 0
  coverageCount : Nat := 0
  deriving DecidableEq, Repr

/-- What a loop may still use. -/
structure InheritedLoopBudget where
  maxIterations : Int
  remainingModelCalls : Int
  remainingTokens : Int
  remainingCost : Rat
  remainingMs : Int
  deriving DecidableEq, Repr

/-- The four limits a run must have frozen for a loop to run. -/
structure FrozenLimits where
  maxCalls : Int
  maxTokens : Int
  maxCost : Rat
  maxSeconds : Int
  deriving DecidableEq, Repr

/-- A scene the loop has produced; what is in it is not looked at. -/
structure Scene where
  sceneId : Option String
  deriving DecidableEq, Repr

/-- One of the four allowances is used up. -/
def InheritedLoopBudget.Spent (b : InheritedLoopBudget) : Prop :=
  b.remainingModelCalls ≤ 0 ∨ b.remainingTokens ≤ 0 ∨ b.remainingCost ≤ 0 ∨ b.remainingMs ≤ 0

instance (b : InheritedLoopBudget) : Decidable b.Spent := by
  unfold InheritedLoopBudget.Spent; infer_instance

namespace BoundedLoop

/-- `_positive_int`. -/
def positiveInt (n : Option Int) : Option Int :=
  n.filter (fun n => decide (0 < n))

/-- `_positive_finite`. -/
def positiveFinite (x : Option Rat) : Option Rat :=
  x.filter (fun x => decide (0 < x))

/-- `_frozen_limits`; `none` is `LOOP_BUDGET_PROFILE_INVALID`. -/
def frozenLimits (run : AgentRun) : Option FrozenLimits := do
  let maxCalls ← positiveInt run.modelPolicy.maxModelCalls
  let maxTokens ← positiveInt run.modelPolicy.maxTokens
  let maxCost ← positiveFinite run.modelPolicy.maxModelCost
  let maxSeconds ← positiveInt (run.executionPolicy.bind (·.maxRunSeconds))
  pure ⟨maxCalls, maxTokens, maxCost, maxSeconds⟩

/-- `usage_snapshot`: the rows, tokens and cost the run has in its ledger. -/
def usageSnapshot (usages : UsageTable) (runId : String) : Nat × Int × Rat :=
  let rows := PolicyEngine.rowsOf usages runId
  (rows.length, (rows.map PolicyEngine.usageTokens).sum, (rows.map PolicyEngine.usageCost).sum)

/-- What is left of the limits after `elapsedMs` more of active time. -/
def remaining (limits : FrozenLimits) (run : AgentRun) (usages : UsageTable) (elapsedMs : Nat)
    (maxIterations : Int) : InheritedLoopBudget :=
  let (calls, tokens, cost) := usageSnapshot usages run.runId
  { maxIterations := maxIterations
    remainingModelCalls := limits.maxCalls - calls
    remainingTokens := limits.maxTokens - tokens
    remainingCost := limits.maxCost - cost
    remainingMs := limits.maxSeconds * 1000 - (run.activeElapsedMs + elapsedMs) }

/-- `derive_inherited_budget`. -/
def deriveInheritedBudget (run : AgentRun) (usages : UsageTable) :
    Except String InheritedLoopBudget :=
  match frozenLimits run with
  | none => .error "LOOP_BUDGET_PROFILE_INVALID"
  | some limits =>
    let budget := remaining limits run usages 0
      (limits.maxCalls - (usageSnapshot usages run.runId).1)
    if budget.Spent then .error "LOOP_BUDGET_EXHAUSTED" else .ok budget

/-- `recompute_loop_remaining`. -/
def recomputeLoopRemaining (run : AgentRun) (usages : UsageTable) (base : InheritedLoopBudget)
    (loopElapsedMs : Nat) : Option InheritedLoopBudget :=
  (frozenLimits run).map fun limits =>
    remaining limits run usages loopElapsedMs base.maxIterations

/-- `merge_unique_scenes`: of the scenes with one id, the first is kept. -/
def mergeUniqueScenes (seen : List String) : List Scene → List Scene
  | [] => []
  | scene :: scenes =>
    match scene.sceneId with
    | none => scene :: mergeUniqueScenes seen scenes
    | some key =>
      if key ∈ seen then mergeUniqueScenes seen scenes
      else scene :: mergeUniqueScenes (key :: seen) scenes

end BoundedLoop

/-- What the executor of a loop is deployed with. -/
structure Deployment where
  limits : AdmissionLimits := {}
  routes : RouteTable := Table.empty
  leaseSeconds : Nat := 90
  resolver : Resolver := none

/-- `_LoopProgress`. -/
structure LoopProgress where
  iterations : Nat := 0
  iterationErrors : Nat := 0
  outputCount : Nat := 0
  coverageCount : Nat := 0
  exhausted : Bool := false
  declaredPartial : Bool := false
  reasonCode : Option String := none
  early : Option AgentRunResult := none
  deriving DecidableEq, Repr

/-- The loop between two turns; `closed` once it has been left. -/
structure LoopState where
  gateway : Gateway
  lease : LeaseContext
  scenes : List Scene := []
  progress : LoopProgress := {}
  closed : Bool := false

/-- What the world holds for one turn of the loop of the run `q`. The calls
are those of its body, made for the run; `result` is none where the body
raised or returned something malformed. -/
structure Round (q : String) where
  meanwhile : List Meanwhile := []
  draining : Bool := false
  elapsedMs : Nat := 0
  calls : List LogicalCall := []
  scenes : List Scene := []
  result : Option LoopIterationResult := none
  own : ∀ call ∈ calls, call.ctx.runId = q := by decide

namespace WorkflowExecutor

/-- `_fail`. -/
def fail (runId errorCode : String) : AgentRunResult :=
  { runId := runId, status := .failed, errorCode := some errorCode }

/-- `_authorization_changed`: unlike the reconciler, the executor takes a run
the resolver does not know for changed. -/
def authorizationChanged (resolver : Resolver) (run : AgentRun) : Bool :=
  match resolver with
  | none => false
  | some current => decide (current run ≠ some run.authorizationVersion)

/-- `_loop_safety_check`: the result the loop returns early with, if any. -/
def loopSafetyCheck (d : Deployment) (q : String) (draining : Bool) (g : Gateway)
    (lease : LeaseContext) : Gateway × LeaseContext × Option AgentRunResult :=
  let db := g.sys.db
  let now := g.sys.clock
  let withDb (db : Db) : Gateway := { g with sys := { g.sys with db := db } }
  match db.runs.find? q with
  | none => (g, lease, some (fail q "LEASE_CONTEXT_INVALID"))
  | some run =>
    let cancelled : Gateway := withDb { db with runs := db.runs.put (run.requestCancel now) }
    if run.cancelRequestedAt ≠ none then
      (g, lease, some { runId := q, status := .cancelled, errorCode := some "CANCEL_REQUESTED" })
    else if authorizationChanged d.resolver run then
      (cancelled, lease,
        some { runId := q, status := .cancelled, errorCode := some "AUTHORIZATION_CHANGED" })
    else if packageExecutable db run = false then
      (cancelled, lease,
        some { runId := q, status := .cancelled, errorCode := some "PACKAGE_REVOKED" })
    else
      match LeaseService.heartbeat db now d.leaseSeconds q lease with
      | (db', lease', renewed) =>
        if renewed = true ∧ LeaseService.canWrite db' now q lease' = true then
          if draining then
            (withDb db', lease',
              some { runId := q, status := .pending, errorCode := some "WORKFLOW_DRAINING" })
          else (withDb db', lease', none)
        else (withDb db', lease', some (fail q "LEASE_CONTEXT_INVALID"))

/-- The turn up to its body; whether the body runs. -/
def enterIteration (d : Deployment) (budget : InheritedLoopBudget) {q : String} (s : LoopState)
    (r : Round q) : LoopState × Bool :=
  if s.closed then (s, false)
  else
    match loopSafetyCheck d q r.draining (s.gateway.meanwhile d.limits r.meanwhile) s.lease with
    | (g, lease, some early) =>
      ({ s with
          gateway := g
          lease := lease
          progress := { s.progress with early := some early }
          closed := true }, false)
    | (g, lease, none) =>
      let s' := { s with gateway := g, lease := lease }
      let live := (g.sys.db.runs.find? q).bind fun run =>
        BoundedLoop.recomputeLoopRemaining run g.usages budget r.elapsedMs
      match live with
      | none => ({ s' with closed := true }, false)
      | some live =>
        if live.Spent ∨ budget.maxIterations ≤ s.progress.iterations then
          ({ s' with
              progress := { s.progress with
                exhausted := true
                reasonCode := some "LOOP_BUDGET_EXHAUSTED" }
              closed := true }, false)
        else (s', true)

/-- The calls of a body, one after the other. -/
def makeCalls (d : Deployment) (g : Gateway) (calls : List LogicalCall) : Gateway :=
  calls.foldl (fun g call => (ModelGateway.call d.limits d.routes g call).gateway) g

/-- The reason a body that is done gives, or the one the loop has for it. -/
def reasonOf (result : LoopIterationResult) : String :=
  match result.reasonCode with
  | some code => if code = "" then defaultReason else code
  | none => defaultReason
where
  defaultReason : String :=
    if result.outcome = .complete then "LOOP_COMPLETE" else "LOOP_PARTIAL_DECLARED"

/-- What the loop makes of a result. -/
def concludeIteration (q : String) (s : LoopState) (result : LoopIterationResult) : LoopState :=
  let progress := { s.progress with iterations := s.progress.iterations + 1 }
  if result.outcome = .failed then
    { s with
      progress := { progress with early := some (fail q "LOOP_BODY_FAILED") }
      closed := true }
  else
    let counted := { progress with
      outputCount := progress.outputCount + result.outputCount
      coverageCount := progress.coverageCount + result.coverageCount }
    let scenes := BoundedLoop.mergeUniqueScenes [] s.scenes
    if result.outcome = .goesOn then { s with progress := counted, scenes := scenes }
    else
      { s with
        progress := { counted with
          declaredPartial := decide (result.outcome = .incomplete)
          reasonCode := some (reasonOf result) }
        scenes := scenes
        closed := true }

/-- The body of a turn, and the check of its model calls. -/
def runIteration (d : Deployment) {q : String} (s : LoopState) (r : Round q) : LoopState :=
  let before := (BoundedLoop.usageSnapshot s.gateway.usages q).1
  let g := makeCalls d s.gateway r.calls
  let s' := { s with gateway := g, scenes := r.scenes }
  match r.result with
  | none =>
    -- `continue`: the calls of a body that raised are not looked at
    { s' with progress := { s.progress with
        iterations := s.progress.iterations + 1
        iterationErrors := s.progress.iterationErrors + 1 } }
  | some result =>
    if 1 < (BoundedLoop.usageSnapshot g.usages q).1 - before then
      { s' with
        progress := { s.progress with
          early := some (fail q "LOOP_MODEL_CALL_CONTRACT_VIOLATED") }
        closed := true }
    else concludeIteration q s' result

/-- One turn of `_run_loop_iterations`. -/
def loopStep (d : Deployment) (budget : InheritedLoopBudget) {q : String} (s : LoopState)
    (r : Round q) : LoopState :=
  match enterIteration d budget s r with
  | (s', true) => runIteration d s' r
  | (s', false) => s'

end WorkflowExecutor

end AgentRuntime
