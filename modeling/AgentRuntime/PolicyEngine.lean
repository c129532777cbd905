import AgentRuntime.ModelUsage

/-!
# Admission of model calls

`PolicyEngine`: a model call is admitted against the limits the run froze,
on the rows its ledger holds. `reserve` reads the run, the step and the
ledger (`reserveRead`), and commits the new row under a conditional update
of the run's status version (`reserveWrite`); where the update does not
match, it reads once more.
-/

namespace AgentRuntime

open Keyed Fencing

/-- What a model call carries, derived from the run and its step
(`ModelCallContext`). -/
structure ModelCallContext where
  runId : String
  stepId : String
  modelAttempt : Nat
  leaseContext : LeaseContext
  estimatedInputTokens : Nat
  requestDeadlineAt : Option Time
  allowedRouteIds : List String := []
  deriving DecidableEq, Repr

/-- The run and step tables, and the ledger beside them. -/
structure Ledger where
  db : Db := {}
  usages : UsageTable := Table.empty

/-- `_nonnegative_finite`. -/
def nonnegativeFinite (x : Option Rat) : Option Rat :=
  x.filter (fun x => decide (0 ≤ x))

namespace PolicyEngine

/-- `_usage_cost`: what the row cost, or else what was reserved for it. -/
def usageCost (usage : AgentModelUsage) : Rat :=
  match nonnegativeFinite usage.estimatedCost with
  | some cost => cost
  | none => (nonnegativeFinite usage.reservedEstimatedCost).getD 0

/-- `_usage_tokens`: the tokens counted for the row, or else the reserved
ones. -/
def usageTokens (usage : AgentModelUsage) : Int :=
  if usage.status = .abortedBeforeSend then 0
  else match nonnegativeInt usage.inputTokens, nonnegativeInt usage.outputTokens with
    | some i, some o => i + o
    | _, _ => (nonnegativeInt usage.reservedTokens).getD 0

/-- What a call on the route is reserved at. -/
def reservedCost (route : ModelRoute) (ctx : ModelCallContext) : Rat :=
  route.inputPrice * ctx.estimatedInputTokens / 1000

/-- The rows of a run. -/
def rowsOf (usages : UsageTable) (runId : String) : List AgentModelUsage :=
  usages.rows.filter (fun u => u.runId = runId)

/-- `_evaluate_budget`, with the code it rejects with. -/
def evaluateBudget (run : AgentRun) (usages : UsageTable) (ctx : ModelCallContext)
    (route : ModelRoute) : Except String Unit :=
  let rows := rowsOf usages run.runId
  let overCalls := (nonnegativeInt run.modelPolicy.maxModelCalls).any
    (fun maxCalls => decide (maxCalls ≤ (rows.length : Int)))
  let overCost := (nonnegativeFinite run.modelPolicy.maxModelCost).any
    (fun maxCost => decide (maxCost ≤ (rows.map usageCost).sum + reservedCost route ctx))
  let overTokens := (nonnegativeInt run.modelPolicy.maxTokens).any
    (fun maxTokens => decide (maxTokens < (rows.map usageTokens).sum + ctx.estimatedInputTokens))
  if overCalls then .error "MODEL_CALL_LIMIT_EXCEEDED"
  else if overCost then .error "MODEL_COST_LIMIT_EXCEEDED"
  else if overTokens then .error "MODEL_TOKEN_LIMIT_EXCEEDED"
  else .ok ()

/-- `_run_is_executable`. -/
def RunIsExecutable (run : AgentRun) (ctx : ModelCallContext) (now : Time) : Prop :=
  run.dispatchState = .claimed ∧
    run.status ∉ [.cancelled, .failed, .succeeded, .partialSucceeded, .waitingHuman] ∧
    run.Unrevoked ctx.leaseContext ∧
    run.executionAttempt = ctx.leaseContext.executionAttempt ∧
    run.leaseOwner = some ctx.leaseContext.leaseOwner ∧
    run.fencingToken = ctx.leaseContext.fencingToken ∧
    heldAfter run.leaseExpiresAt now ∧ now < ctx.leaseContext.leaseExpiresAt

/-- The step of the call is running under its attempt. -/
def StepIsCurrent (db : Db) (ctx : ModelCallContext) : Prop :=
  ∃ step ∈ db.steps, step.stepId = ctx.stepId ∧ step.runId = ctx.runId ∧
    step.status = "running" ∧ step.executionAttempt = ctx.leaseContext.executionAttempt ∧
    step.stepAttempt = ctx.modelAttempt

/-- `context_is_authoritative`, on the row of the run. -/
def ContextIsAuthoritative (db : Db) (run : AgentRun) (ctx : ModelCallContext) (now : Time) :
    Prop :=
  RunIsExecutable run ctx now ∧ StepIsCurrent db ctx

instance (run : AgentRun) (ctx : ModelCallContext) (now : Time) :
    Decidable (RunIsExecutable run ctx now) := by
  unfold RunIsExecutable; infer_instance

instance (db : Db) (ctx : ModelCallContext) : Decidable (StepIsCurrent db ctx) := by
  unfold StepIsCurrent; infer_instance

instance (db : Db) (run : AgentRun) (ctx : ModelCallContext) (now : Time) :
    Decidable (ContextIsAuthoritative db run ctx now) := by
  unfold ContextIsAuthoritative; infer_instance

/-- The read of `reserve`: the status version its update will ask for. -/
def reserveRead (l : Ledger) (now : Time) (ctx : ModelCallContext) (route : ModelRoute) :
    Except String Nat :=
  match l.db.runs.find? ctx.runId with
  | none => .error "MODEL_RUN_NOT_EXECUTABLE"
  | some run =>
    if ContextIsAuthoritative l.db run ctx now then do
      evaluateBudget run l.usages ctx route
      pure run.statusVersion
    else .error "MODEL_RUN_NOT_EXECUTABLE"

/-- The `where` clause of the update of `reserve`. -/
def Guarded (db : Db) (run : AgentRun) (ctx : ModelCallContext) (version : Nat) : Prop :=
  run.statusVersion = version ∧ run.dispatchState = .claimed ∧
    run.Unrevoked ctx.leaseContext ∧
    run.executionAttempt = ctx.leaseContext.executionAttempt ∧
    run.leaseOwner = some ctx.leaseContext.leaseOwner ∧
    run.fencingToken = ctx.leaseContext.fencingToken ∧ StepIsCurrent db ctx

instance (db : Db) (run : AgentRun) (ctx : ModelCallContext) (version : Nat) :
    Decidable (Guarded db run ctx version) := by
  unfold Guarded; infer_instance

/-- The attempt numbers the step has used in this execution. -/
def attemptsOf (usages : UsageTable) (ctx : ModelCallContext) : List Nat :=
  (usages.rows.filter (fun u => u.runId = ctx.runId ∧ u.stepId = ctx.stepId ∧
    u.executionAttempt = ctx.leaseContext.executionAttempt)).map (·.modelAttempt)

/-- The attempt number of a new row: past all of them. -/
def nextAttempt (usages : UsageTable) (ctx : ModelCallContext) : Nat :=
  max ctx.modelAttempt (match (attemptsOf usages ctx).max? with
    | some previous => previous + 1
    | none => 1)

/-- The row `reserve` inserts; `usageId` is the fresh identifier it draws. -/
def newUsage (usages : UsageTable) (ctx : ModelCallContext) (route : ModelRoute)
    (usageId : Nat) : AgentModelUsage :=
  { usageId := usageId
    runId := ctx.runId
    stepId := ctx.stepId
    executionAttempt := ctx.leaseContext.executionAttempt
    modelAttempt := nextAttempt usages ctx
    status := .reserved
    reservedEstimatedCost := some (reservedCost route ctx)
    reservedTokens := some ctx.estimatedInputTokens
    requestDeadlineAt := ctx.requestDeadlineAt }

/-- The update, the insertion and the commit of `reserve`; `none` where the
update does not match. -/
def reserveWrite (l : Ledger) (ctx : ModelCallContext) (route : ModelRoute) (version : Nat)
    (usageId : Nat) : Result (Option Ledger) :=
  match l.db.runs.find? ctx.runId with
  | none => pure none
  | some run =>
    if Guarded l.db run ctx version then
      match l.usages.insert? (newUsage l.usages ctx route usageId) with
      | none => .error .integrity
      | some usages =>
        pure (some { db := { l.db with runs := l.db.runs.put run.bumpVersion }, usages := usages })
    else pure none

/-- What a committed reservation did. -/
theorem reserveWrite_ok {l l' : Ledger} {ctx : ModelCallContext} {route : ModelRoute}
    {version usageId : Nat} (h : reserveWrite l ctx route version usageId = .ok (some l')) :
    ∃ run, l.db.runs.find? ctx.runId = some run ∧ Guarded l.db run ctx version ∧
      ∃ usages, l.usages.insert? (newUsage l.usages ctx route usageId) = some usages ∧
        l' = { db := { l.db with runs := l.db.runs.put run.bumpVersion }, usages := usages } := by
  unfold reserveWrite at h
  split at h
  · cases h
  next run hfind =>
    split at h
    next hguard =>
      split at h
      · cases h
      next usages hins =>
        cases h
        exact ⟨run, hfind, hguard, usages, hins, rfl⟩
    · cases h

/-- What a read found that lets `reserve` go on. -/
theorem reserveRead_ok {l : Ledger} {now : Time} {ctx : ModelCallContext} {route : ModelRoute}
    {version : Nat} (h : reserveRead l now ctx route = .ok version) :
    ∃ run, l.db.runs.find? ctx.runId = some run ∧ ContextIsAuthoritative l.db run ctx now ∧
      evaluateBudget run l.usages ctx route = .ok () ∧ run.statusVersion = version := by
  unfold reserveRead at h
  split at h
  · cases h
  next run hfind =>
    split at h
    next hauth =>
      rcases hbudget : evaluateBudget run l.usages ctx route with code | ⟨⟩
      · rw [hbudget] at h
        cases h
      · rw [hbudget] at h
        cases h
        exact ⟨run, hfind, hauth, hbudget, rfl⟩
    · cases h

end PolicyEngine

/-! ## A run to call from -/

def modelStep : AgentStep :=
  { stepId := "step-1"
    runId := "run-1"
    stepName := "draft"
    stepType := "model"
    status := "running"
    executionAttempt := 1 }

/-- A worker has claimed the run and is at its model node. -/
def callingRun : Sys :=
  reach {} (claimedRun ++ [after 1 (.write 0 (.addStep modelStep))])

def sampleContext : ModelCallContext :=
  { runId := "run-1"
    stepId := "step-1"
    modelAttempt := 1
    leaseContext := {
      executionAttempt := 1
      leaseOwner := "worker-1"
      fencingToken := 1
      leaseExpiresAt := seconds 90
      privacyVersion := 1
      authorizationVersion := 1 }
    estimatedInputTokens := 0
    requestDeadlineAt := some (seconds 60)
    allowedRouteIds := ["primary"] }

def sampleRoute : ModelRoute := { routeId := "primary" }

end AgentRuntime
