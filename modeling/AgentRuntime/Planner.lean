import AgentRuntime.Model

/-!
# The static plan and the frozen limits

What a run freezes when it is created: `PackagePolicy.modelValidate` checks
the policy of the registered definition, `freezeDefinitionSteps` the nodes,
and `createPlanFromDefinition` builds the plan from them. `assertCanContinue`
is the check the worker makes against the frozen execution policy.
-/

namespace AgentRuntime

/-- `PackagePolicy` after validation. -/
structure PackagePolicy where
  waitingHumanTimeoutAction : String
  waitingHumanFallbackNode : Option String
  maxModelCalls : Option Int
  maxModelCost : Option Rat
  maxTokens : Option Int
  maxSteps : Option Int
  maxToolCalls : Option Int
  maxRunSeconds : Option Int
  maxAutoRetryPerStep : Option Int
  deriving DecidableEq, Repr

/-- An absent limit, or one that is not negative. -/
def limitValid (limit : Option Int) : Bool :=
  match limit with
  | none => true
  | some n => decide (0 ≤ n)

/-- `PackagePolicy.model_validate`: unknown keys are refused, limits are not
negative, and a fallback needs a node to fall back to. -/
def PackagePolicy.modelValidate (raw : RawPolicy) : Result PackagePolicy := do
  require (raw.extraKeys = [] ∧ raw.rejectAction = none) (.value "Extra inputs are not permitted")
  let action := raw.waitingHumanTimeoutAction.getD "failed"
  require (action ∈ ["fallback", "failed", "cancelled"])
    (.value "Input should be 'fallback', 'failed' or 'cancelled'")
  require (limitValid raw.maxModelCalls ∧ limitValid raw.maxTokens)
    (.value "max_model_calls/max_tokens 必须为非负整数")
  require (∀ cost ∈ raw.maxModelCost, 0 ≤ cost) (.value "max_model_cost 必须为非负有限数")
  require (limitValid raw.maxSteps ∧ limitValid raw.maxToolCalls ∧ limitValid raw.maxRunSeconds
      ∧ limitValid raw.maxAutoRetryPerStep)
    (.value "执行期额度必须为非负整数")
  require (¬ (action = "fallback" ∧ (raw.waitingHumanFallbackNode.getD "") = ""))
    (.value "waiting_human fallback 必须指定恢复节点")
  pure {
    waitingHumanTimeoutAction := action
    waitingHumanFallbackNode := raw.waitingHumanFallbackNode
    maxModelCalls := raw.maxModelCalls
    maxModelCost := raw.maxModelCost
    maxTokens := raw.maxTokens
    maxSteps := raw.maxSteps
    maxToolCalls := raw.maxToolCalls
    maxRunSeconds := raw.maxRunSeconds
    maxAutoRetryPerStep := raw.maxAutoRetryPerStep }

/-- The part of the capability snapshot that limits model calls. -/
def PackagePolicy.modelPolicy (policy : PackagePolicy) : RunModelPolicy :=
  { maxModelCalls := policy.maxModelCalls
    maxModelCost := policy.maxModelCost
    maxTokens := policy.maxTokens }

/-- The part of the capability snapshot that limits execution. -/
def PackagePolicy.executionPolicy (policy : PackagePolicy) : ExecutionPolicy :=
  { maxSteps := policy.maxSteps
    maxToolCalls := policy.maxToolCalls
    maxRunSeconds := policy.maxRunSeconds
    maxAutoRetryPerStep := policy.maxAutoRetryPerStep }

/-- `WorkflowNodeDefinition.model_validate`. -/
def validateNode (raw : RawNode) : Option PlanNode :=
  let rerun := raw.safeToRerun.getD false
  let isLoop := decide (raw.nodeType = "bounded_loop")
  if raw.nodeId ≠ "" ∧
      raw.nodeType ∈ ["deterministic", "tool", "model", "guardrail", "fallback", "bounded_loop"] ∧
      raw.hasLoopPolicy = isLoop ∧ (isLoop = true → rerun = true) then
    some {
      nodeId := raw.nodeId
      nodeType := raw.nodeType
      nextNodes := raw.nextNodes
      canWaitForHuman := raw.canWaitForHuman
      optional := raw.optional
      safeToRerun := some rerun }
  else none

/-- `_freeze_definition_steps`: every node must be well formed and declare
`safe_to_rerun` explicitly. -/
def freezeDefinitionSteps (rawNodes : List RawNode) : Result (List PlanNode) :=
  match rawNodes.mapM validateNode with
  | none => .error (.value "workflow_nodes 必须是静态节点定义")
  | some nodes =>
    if rawNodes.all (fun n => n.safeToRerun.isSome) then .ok nodes
    else .error (.value "workflow_nodes 节点必须显式声明 safe_to_rerun")

/-- `DEFAULT_STOP_CONDITIONS`. -/
def defaultStopConditions : StopConditions :=
  { maxRunSeconds := some 300, queueTtlSeconds := some 900, approvalTtlSeconds := some 86400 }

/-- The fallback policy a definition's raw policy gives the plan. -/
def fallbackPolicyOf (policy : RawPolicy) (steps : List PlanNode) : FallbackPolicy :=
  { waitingHumanTimeoutAction :=
      policy.waitingHumanTimeoutAction.filter (fun a => a ∈ ["fallback", "failed", "cancelled"])
    rejectAction := policy.rejectAction.filter (fun a => a ∈ ["fallback", "failed"])
    waitingHumanFallbackNode :=
      policy.waitingHumanFallbackNode.filter (fun n => n ∈ steps.map (·.nodeId)) }

/-- `create_plan_from_definition`. -/
def createPlanFromDefinition (runId : String) (definition : DefinitionJson) :
    Result AgentPlan := do
  let steps ← freezeDefinitionSteps definition.workflowNodes
  pure {
    runId := runId
    steps := steps
    stopConditions := defaultStopConditions
    fallbackPolicy := fallbackPolicyOf definition.policy steps }

/-- The counters a caller is about to have consumed. -/
structure Counters where
  steps : Int := 0
  toolCalls : Int := 0
  autoRetries : Int := 0
  activeElapsedMs : Int := 0
  deriving DecidableEq, Repr

/-- `_nonnegative_int`. -/
def nonnegativeInt (n : Option Int) : Option Int :=
  n.filter (fun n => decide (0 ≤ n))

/-- `value` is over an existing limit. -/
def overLimit (value : Int) (limit : Option Int) : Bool :=
  match nonnegativeInt (some value), nonnegativeInt limit with
  | some v, some l => decide (l < v)
  | _, _ => false

theorem overLimit_zero (limit : Option Int) : overLimit 0 limit = false := by
  unfold overLimit
  split
  next v l hv hl =>
    obtain ⟨_, hnonneg⟩ := Option.filter_eq_some_iff.mp hl
    have hl₀ := of_decide_eq_true hnonneg
    cases hv
    exact decide_eq_false (by omega)
  · rfl

/-- `PolicyEngine.assert_can_continue`, with the code it rejects with; a run
without a frozen execution policy is never rejected. -/
def assertCanContinue (run : AgentRun) (counters : Counters) : Except String Unit :=
  match run.executionPolicy with
  | none => .ok ()
  | some policy =>
    if overLimit counters.steps policy.maxSteps then .error "STEP_LIMIT_EXCEEDED"
    else if overLimit counters.toolCalls policy.maxToolCalls then .error "TOOL_CALL_LIMIT_EXCEEDED"
    else if overLimit counters.autoRetries policy.maxAutoRetryPerStep then
      .error "AUTO_RETRY_LIMIT_EXCEEDED"
    else
      match nonnegativeInt policy.maxRunSeconds, nonnegativeInt (some counters.activeElapsedMs) with
      | some maxSeconds, some deltaMs =>
        if maxSeconds * 1000 < run.activeElapsedMs + deltaMs then
          .error "ACTIVE_TIME_LIMIT_EXCEEDED"
        else .ok ()
      | _, _ => .ok ()

/-- What a successful plan is made of. -/
theorem createPlanFromDefinition_ok {runId : String} {definition : DefinitionJson}
    {plan : AgentPlan} (h : createPlanFromDefinition runId definition = .ok plan) :
    ∃ steps, freezeDefinitionSteps definition.workflowNodes = .ok steps ∧
      plan = {
        runId := runId
        steps := steps
        stopConditions := defaultStopConditions
        fallbackPolicy := fallbackPolicyOf definition.policy steps } := by
  obtain ⟨steps, hsteps, hplan⟩ := bind_ok.mp h
  cases hplan
  exact ⟨steps, hsteps, rfl⟩

end AgentRuntime
