import AgentRuntime.MemoirRequest
import AgentRuntime.Traffic
import AgentRuntime.GatewayCall

/-!
# The memoir adapter of the model gateway

`MemoirModelGatewayAdapter.call` and `.repair`, up to what they hand to
`ModelGateway.call`: the context, the route and the request. The context is
derived from the running step (`fromAuthoritative`); its token estimate is
what the row of the step says, and nothing the executor writes into that row
says anything (`WorkflowExecutor.startStep`). A repair raises it to the
approximation of what it sends.
-/

namespace AgentRuntime

/-- The token estimate a step row carries. -/
def AgentStep.estimatedInputTokens (step : AgentStep) : Nat :=
  ((step.inputSummary.bind (·.estimatedInputTokens)).getD 0).toNat

/-- The row the executor inserts for a node. -/
def WorkflowExecutor.startStep (stepId runId : String) (node : PlanNode) (lease : LeaseContext) :
    AgentStep :=
  { stepId := stepId
    runId := runId
    stepName := node.nodeId
    stepType := node.nodeType
    status := "running"
    executionAttempt := lease.executionAttempt
    stepAttempt := 1 }

namespace ModelCallContext

/-- `allowed_routes_from_snapshot`. -/
def allowedRoutes (run : AgentRun) : List String :=
  match run.allowedModelRouteIds with
  | some routeIds => if "" ∈ routeIds then [] else routeIds
  | none => []

/-- The deadline of a call: that of the run, or the end of its active time,
whichever is first. -/
def requestDeadline (run : AgentRun) (now : Time) : Time :=
  match run.executionPolicy.bind (·.maxRunSeconds) with
  | some maxRunSeconds =>
    if 0 ≤ maxRunSeconds then
      min run.runDeadlineAt (now + 1000 * (maxRunSeconds * 1000 - run.activeElapsedMs).toNat)
    else run.runDeadlineAt
  | none => run.runDeadlineAt

/-- `from_authoritative`; `none` where it raises. -/
def fromAuthoritative (db : Db) (now : Time) (runId stepId : String) (lease : LeaseContext) :
    Option ModelCallContext := do
  let run ← db.runs.find? runId
  let step ← db.steps.find? (fun s => decide (s.stepId = stepId ∧ s.runId = runId))
  if step.status = "running" ∧ step.executionAttempt = lease.executionAttempt ∧
      run.executionAttempt = lease.executionAttempt ∧ run.leaseOwner = some lease.leaseOwner ∧
      run.fencingToken = lease.fencingToken then
    some {
      runId := runId
      stepId := stepId
      modelAttempt := step.stepAttempt
      leaseContext := lease
      estimatedInputTokens := step.estimatedInputTokens
      requestDeadlineAt := some (requestDeadline run now)
      allowedRouteIds := allowedRoutes run }
  else none

/-- `with_minimum_estimated_input_tokens`. -/
def withMinimumEstimatedInputTokens (ctx : ModelCallContext) (minimumTokens : Nat) :
    ModelCallContext :=
  { ctx with estimatedInputTokens := max ctx.estimatedInputTokens minimumTokens }

/-- What `_call_route` asks the traffic controller for. -/
def permitRequest (ctx : ModelCallContext) (permitId : String) : TrafficOp :=
  .acquire permitId ctx.estimatedInputTokens

end ModelCallContext

/-- What the adapter is deployed with: the prompts of the packages, the
capabilities of the routes, and what the source leaves to libraries.
`none` is a `ValueError`. -/
structure Packages where
  load : String → String → String × String → Option PromptDefinition
  capabilityAvailable : String → PromptDefinition → Nat → Option Bool
  contextTokenBudget : String → PromptDefinition → Option Int
  floatText : Json.FloatText
  redact : String → String

structure MemoirModelGatewayAdapter where
  packages : Packages
  routeIds : List (String × String)
  leaseContext : Option LeaseContext

/-- What is handed to `ModelGateway.call`. -/
structure ModelRequest where
  ctx : ModelCallContext
  routeId : String
  request : ProviderRequest
  prompt : PromptDefinition
  deriving DecidableEq

/-- What a refusal is answered; `none` where the adapter raises. -/
abbrev Refusal := Option GatewayStatus

/-- Go on with a value, or refuse. -/
def demand {α : Type} (refusal : Refusal) : Option α → Except Refusal α
  | some a => .ok a
  | none => .error refusal

theorem demand_bind {α β : Type} {refusal : Refusal} {x : Option α} {f : α → Except Refusal β}
    {b : β} (h : (demand refusal x >>= f) = .ok b) : ∃ a, x = some a ∧ f a = .ok b := by
  cases x with
  | none => cases h
  | some a => exact ⟨a, rfl, h⟩

/-- A check that is passed. -/
theorem check_bind {β : Type} {x : Except Refusal Unit} {f : Unit → Except Refusal β} {b : β}
    (h : (x >>= f) = .ok b) : f () = .ok b := by
  cases x with
  | error refusal => cases h
  | ok _ => exact h

namespace MemoirModelGatewayAdapter

/-- `_PROMPT_REFS`. -/
def promptRefs : List (String × (String × String)) :=
  [("extract_highlights", ("highlight-extract", "v1")),
   ("plan_chapters", ("chapter-plan", "v1")),
   ("generate_scenes", ("scene-generate", "v1")),
   ("generate_scene_batch", ("scene-batch-generate", "v1")),
   ("repair_coverage_gaps", ("coverage-repair", "v1"))]

/-- `_REPAIR_PROMPT_REF`. -/
def repairPromptRef : String × String := ("structured-output-repair", "v1")

/-- `_authoritative_step_name`: the body of the loop runs under the step of
the loop. -/
def authoritativeStepName (nodeId : String) : String :=
  if nodeId = "generate_scene_batch" then "generate_scene_batches" else nodeId

/-- The run, and the one step of it that runs the node. -/
def authoritativeStep (db : Db) (lease : LeaseContext) (runId nodeId : String) :
    Option (AgentRun × AgentStep) := do
  let run ← db.runs.find? runId
  match db.steps.filter (fun s => decide (s.runId = runId ∧
      s.stepName = authoritativeStepName nodeId ∧ s.status = "running" ∧
      s.executionAttempt = lease.executionAttempt)) with
  | [step] => some (run, step)
  | _ => none

/-- `capability_available`, answered as the adapter answers it. -/
def checkCapability (p : Packages) (routeId : String) (prompt : PromptDefinition)
    (estimatedInputTokens : Nat) : Except Refusal Unit := do
  let available ← demand none (p.capabilityAvailable routeId prompt estimatedInputTokens)
  if available then pure () else .error (some .capabilityDisabled)

/-- The messages of a request, with the materials that fit; `none` is a
`ValueError`. -/
def buildRequest (p : Packages) (nodeId routeId : String) (prompt : PromptDefinition)
    (materials : List Material) (candidateInput : List (String × Json)) :
    Option ProviderRequest := do
  let modelBudget ← p.contextTokenBudget routeId prompt
  let tokenBudget ← ContextManager.nodeTokenBudget nodeId modelBudget
  let items ← ContextManager.buildNodeContext p.redact prompt.template materials tokenBudget
  let messages ← renderModelMessages p.floatText prompt items candidateInput
  pure { messages := messages }

/-- The value of a mapping. -/
def mapping : Json → Option (List (String × Json))
  | .obj fields => some fields
  | _ => none

/-- The materials of a first call: placeholders where none came with it. -/
def callMaterials (materials : Option Json) (refs : List String) : List Material :=
  match candidateMaterials materials refs with
  | [] => refs.map (fun ref => (ref, "[SOURCE_REF]"))
  | found => found

/-- `call`. -/
def call (a : MemoirModelGatewayAdapter) (db : Db) (now : Time) (runId nodeId : String)
    (request : List (String × Json)) : Except Refusal ModelRequest := do
  let promptRef ← demand (some .routeNotAllowed) (promptRefs.lookup nodeId)
  let lease ← demand (some .routeNotAllowed) a.leaseContext
  let (run, step) ← demand (some .abortedBeforeSend) (authoritativeStep db lease runId nodeId)
  let ctx ← demand (some .abortedBeforeSend)
    (ModelCallContext.fromAuthoritative db now runId step.stepId lease)
  let prompt ← demand (some .abortedBeforeSend)
    (a.packages.load run.agentId run.agentVersion promptRef)
  let routeId ← demand (some .routeNotAllowed) (a.routeIds.lookup nodeId)
  checkCapability a.packages routeId prompt ctx.estimatedInputTokens
  let candidateInput ← demand (some .abortedBeforeSend)
    (mapping ((Json.get? "input" request).getD (.obj [])))
  let refs ← demand none (candidateSourceRefs candidateInput)
  let providerRequest ← demand (some .abortedBeforeSend)
    (buildRequest a.packages nodeId routeId prompt
      (callMaterials (Json.get? "materials" request) refs) candidateInput)
  pure { ctx := ctx, routeId := routeId, request := providerRequest, prompt := prompt }

/-- `_MAX_REPAIR_CANDIDATE_CHARS`. -/
def maxRepairCandidateChars : Nat := 2048

/-- `_serialize_invalid_output`. -/
def serializeInvalidOutput (p : Packages) : Json → Option String
  | .str s => some (firstChars maxRepairCandidateChars s)
  | .obj fields =>
    some (firstChars maxRepairCandidateChars (Json.dumps p.floatText (.obj fields)))
  | _ => none

/-- What a repair is told of the original prompt. -/
def repairInput (originalPrompt : PromptDefinition) (refs : List String) : List (String × Json) :=
  [("original_prompt_id", .str originalPrompt.promptId),
   ("original_prompt_version", .str originalPrompt.version),
   ("output_schema", .str originalPrompt.outputSchema),
   ("allowed_source_refs", .arr (refs.map .str)),
   ("validation_code", .str "MODEL_OUTPUT_INVALID")]

/-- `repair`. -/
def repair (a : MemoirModelGatewayAdapter) (db : Db) (now : Time) (runId nodeId : String)
    (request : List (String × Json)) (invalidOutput : Json) : Except Refusal ModelRequest := do
  let promptRef ← demand (some .routeNotAllowed) (promptRefs.lookup nodeId)
  let lease ← demand (some .routeNotAllowed) a.leaseContext
  let (run, step) ← demand (some .abortedBeforeSend) (authoritativeStep db lease runId nodeId)
  let ctx ← demand (some .abortedBeforeSend)
    (ModelCallContext.fromAuthoritative db now runId step.stepId lease)
  let originalPrompt ← demand (some .abortedBeforeSend)
    (a.packages.load run.agentId run.agentVersion promptRef)
  let repairPrompt ← demand (some .abortedBeforeSend)
    (a.packages.load run.agentId run.agentVersion repairPromptRef)
  let rawCandidate ← demand (some .abortedBeforeSend)
    (serializeInvalidOutput a.packages invalidOutput)
  let routeId ← demand (some .routeNotAllowed) (a.routeIds.lookup nodeId)
  checkCapability a.packages routeId repairPrompt ctx.estimatedInputTokens
  let safeInput ← demand (some .abortedBeforeSend)
    ((Json.get? "input" request).bind mapping)
  let refs ← demand none (candidateSourceRefs safeInput)
  let providerRequest ← demand (some .abortedBeforeSend)
    (buildRequest a.packages nodeId routeId repairPrompt
      (candidateMaterials (Json.get? "materials" request) refs ++
        [("model_candidate", rawCandidate)])
      (repairInput originalPrompt refs))
  -- the reservation of a repair follows what is sent
  let ctx := ctx.withMinimumEstimatedInputTokens
    (max 1 (providerRequest.approximateTokens a.packages.floatText))
  checkCapability a.packages routeId repairPrompt ctx.estimatedInputTokens
  pure { ctx := ctx, routeId := routeId, request := providerRequest, prompt := repairPrompt }

/-- A call goes out under the context of its step. -/
theorem call_ok {a : MemoirModelGatewayAdapter} {db : Db} {now : Time} {runId nodeId : String}
    {request : List (String × Json)} {m : ModelRequest}
    (h : a.call db now runId nodeId request = .ok m) :
    ∃ stepId lease, ModelCallContext.fromAuthoritative db now runId stepId lease = some m.ctx := by
  obtain ⟨_, -, h⟩ := demand_bind h
  obtain ⟨lease, -, h⟩ := demand_bind h
  obtain ⟨⟨run, step⟩, -, h⟩ := demand_bind h
  obtain ⟨ctx, hctx, h⟩ := demand_bind h
  obtain ⟨_, -, h⟩ := demand_bind h
  obtain ⟨_, -, h⟩ := demand_bind h
  have h := check_bind h
  obtain ⟨_, -, h⟩ := demand_bind h
  obtain ⟨_, -, h⟩ := demand_bind h
  obtain ⟨_, -, h⟩ := demand_bind h
  cases h
  exact ⟨step.stepId, lease, hctx⟩

/-- A repair is estimated at no less than what it sends. -/
theorem repair_ok {a : MemoirModelGatewayAdapter} {db : Db} {now : Time} {runId nodeId : String}
    {request : List (String × Json)} {invalidOutput : Json} {m : ModelRequest}
    (h : a.repair db now runId nodeId request invalidOutput = .ok m) :
    m.request.approximateTokens a.packages.floatText ≤ m.ctx.estimatedInputTokens := by
  obtain ⟨_, -, h⟩ := demand_bind h
  obtain ⟨lease, -, h⟩ := demand_bind h
  obtain ⟨⟨run, step⟩, -, h⟩ := demand_bind h
  obtain ⟨ctx, -, h⟩ := demand_bind h
  obtain ⟨_, -, h⟩ := demand_bind h
  obtain ⟨_, -, h⟩ := demand_bind h
  obtain ⟨_, -, h⟩ := demand_bind h
  obtain ⟨_, -, h⟩ := demand_bind h
  have h := check_bind h
  obtain ⟨_, -, h⟩ := demand_bind h
  obtain ⟨_, -, h⟩ := demand_bind h
  obtain ⟨providerRequest, -, h⟩ := demand_bind h
  have h := check_bind h
  cases h
  exact Nat.le_trans (Nat.le_max_right 1 _) (Nat.le_max_right _ _)

end MemoirModelGatewayAdapter

end AgentRuntime
