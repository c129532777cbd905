import AgentRuntime.Lease
import AgentRuntime.Planner

/-!
# The audit of tool calls

`ToolCallAuditService`: every physical call of a tool has a row in
`agent_tool_calls`. A row is written `running` and committed before the
request is sent, and settled when the call is over. The rows of one logical
operation of a run form a chain (`chain`): they carry one idempotency key
and one request digest, and `tool_attempt` counts them.

The table is a list in the order of the autoincrement key, so a row is named
by its place. Rows are never deleted. The settled columns that no modelled
operation reads (durations, retention, the text of the error) are left out.
-/

namespace AgentRuntime

open Keyed

/-- `agent_tool_calls.status`. -/
inductive ToolCallStatus
  | running | succeeded | failed | outcomeUnknown
  deriving DecidableEq, Repr

/-- A sanitised summary. -/
abbrev Summary := List (String × Json)

/-- A row of `agent_tool_calls`. -/
structure AgentToolCall where
  toolCallId : Nat
  runId : String
  stepId : String
  toolName : String
  toolVersion : Option String
  transport : String
  sideEffect : Bool
  idempotencyKey : String
  logicalOperationKey : String
  requestDigest : String
  executionAttempt : Nat
  toolAttempt : Nat
  status : ToolCallStatus := .running
  inputSummary : Option Summary
  outputSummary : Option Summary := none
  errorCode : Option String := none
  createdAt : Time

/-- The row is an attempt of the logical operation `key` of the run. -/
def AgentToolCall.AttemptOf (call : AgentToolCall) (runId key : String) : Prop :=
  call.runId = runId ∧ call.logicalOperationKey = key

instance (call : AgentToolCall) (runId key : String) : Decidable (call.AttemptOf runId key) := by
  unfold AgentToolCall.AttemptOf; infer_instance

/-- The attempts of a logical operation, in the order of their creation. -/
def chain (calls : List AgentToolCall) (runId key : String) : List AgentToolCall :=
  calls.filter (fun call => decide (call.AttemptOf runId key))

/-- `PolicyEngine.assert_tool_call_allowed`: every physical attempt of a step
counts. -/
def assertToolCallAllowed (db : Db) (calls : List AgentToolCall) (runId stepId : String) :
    Except String Unit :=
  match db.runs.find? runId with
  | none => .ok ()
  | some run =>
    assertCanContinue run {
      toolCalls :=
        calls.countP (fun call => decide (call.runId = runId ∧ call.stepId = stepId)) + 1 }

/-- The arguments of `_begin`. -/
structure ToolCallRequest where
  runId : String
  executionAttempt : Nat
  stepId : String
  toolName : String
  toolVersion : Option String
  transport : String
  logicalKey : String
  idempotencyKey : String
  requestDigest : String
  inputSummary : Summary
  sideEffect : Bool
  leaseContext : Option LeaseContext := none

/-- The row `_begin` writes; `existing` attempts were made before. -/
def ToolCallRequest.row (request : ToolCallRequest) (id existing : Nat) (now : Time) :
    AgentToolCall :=
  { toolCallId := id
    runId := request.runId
    stepId := request.stepId
    toolName := request.toolName
    toolVersion := request.toolVersion
    transport := request.transport
    sideEffect := request.sideEffect
    idempotencyKey := request.idempotencyKey
    logicalOperationKey := request.logicalKey
    requestDigest := request.requestDigest
    executionAttempt := request.executionAttempt
    toolAttempt := existing + 1
    inputSummary := some request.inputSummary
    createdAt := now }

/-- The columns `_persist_result` writes. -/
structure ToolCallOutcome where
  status : ToolCallStatus
  errorCode : Option String := none
  outputSummary : Option Summary := none

def AgentToolCall.settle (call : AgentToolCall) (outcome : ToolCallOutcome) : AgentToolCall :=
  { call with
    status := outcome.status
    errorCode := outcome.errorCode
    outputSummary := outcome.outputSummary }

namespace ToolCallAuditService

/-- The guard of `_begin` and `_persist_result`: without a lease context
nothing is checked. -/
def mayWrite (db : Db) (now : Time) (runId : String) (ctx : Option LeaseContext) : Bool :=
  match ctx with
  | none => true
  | some ctx => LeaseService.canWrite db now runId ctx

/-- `_begin`, with the code it refuses with. -/
def begin_ (db : Db) (now : Time) (calls : List AgentToolCall) (request : ToolCallRequest) :
    Except String (List AgentToolCall) :=
  if mayWrite db now request.runId request.leaseContext = true then
    match assertToolCallAllowed db calls request.runId request.stepId with
    | .error code => .error code
    | .ok () =>
      let existing := chain calls request.runId request.logicalKey
      if existing.any (fun item => decide (item.idempotencyKey ≠ request.idempotencyKey ∨
          item.requestDigest ≠ request.requestDigest)) then
        .error "TOOL_CALL_OPERATION_CONFLICT"
      else .ok (calls ++ [request.row calls.length existing.length now])
  else .error "TOOL_RESULT_LEASE_INVALID"

/-- What a begun attempt was checked against. -/
theorem begin_ok {db : Db} {now : Time} {calls calls' : List AgentToolCall}
    {request : ToolCallRequest} (h : begin_ db now calls request = .ok calls') :
    mayWrite db now request.runId request.leaseContext = true ∧
      (∀ item ∈ chain calls request.runId request.logicalKey,
        item.idempotencyKey = request.idempotencyKey ∧
          item.requestDigest = request.requestDigest) ∧
      calls' = calls ++ [request.row calls.length
        (chain calls request.runId request.logicalKey).length now] := by
  unfold begin_ at h
  split at h
  next hmay =>
    split at h
    · cases h
    · dsimp only at h
      split at h
      · cases h
      next hsame =>
        cases h
        refine ⟨hmay, fun item hitem => ?_, rfl⟩
        rw [List.any_eq_true] at hsame
        by_contra hno
        exact hsame ⟨item, hitem, decide_eq_true (not_and_or.mp hno)⟩
  · cases h

/-- `begin_publish`. -/
def beginPublish (db : Db) (now : Time) (calls : List AgentToolCall) (runId : String)
    (executionAttempt : Nat) (logicalKey idempotencyKey requestDigest : String)
    (ctx : Option LeaseContext) : Except String (List AgentToolCall) :=
  begin_ db now calls {
    runId := runId
    executionAttempt := executionAttempt
    stepId := "publish_document"
    toolName := "memory.publish_playback_document"
    toolVersion := some "1.0.0"
    transport := "http_business_tool"
    logicalKey := logicalKey
    idempotencyKey := idempotencyKey
    requestDigest := requestDigest
    inputSummary := [("operation", .str "publish_playback_document")]
    sideEffect := true
    leaseContext := ctx }

/-- `begin_native`. -/
def beginNative (db : Db) (now : Time) (calls : List AgentToolCall) (runId : String)
    (executionAttempt : Nat) (stepId toolName logicalKey requestDigest : String) :
    Except String (List AgentToolCall) :=
  begin_ db now calls {
    runId := runId
    executionAttempt := executionAttempt
    stepId := stepId
    toolName := toolName
    toolVersion := some "1.0.0"
    transport := "native"
    logicalKey := logicalKey
    idempotencyKey := logicalKey
    requestDigest := requestDigest
    inputSummary := [("operation", .str toolName)]
    sideEffect := false }

/-- `_persist_result`, and whether it was written. -/
def persistResult (db : Db) (now : Time) (calls : List AgentToolCall) (record : Nat)
    (outcome : ToolCallOutcome) (ctx : Option LeaseContext) : List AgentToolCall × Bool :=
  match calls[record]? with
  | none => (calls, false)
  | some call =>
    if mayWrite db now call.runId ctx = true then
      (calls.modify record (fun call => call.settle outcome), true)
    else (calls, false)

/-- A result is written, or the lease does not allow it. -/
theorem persistResult_cases (db : Db) (now : Time) (calls : List AgentToolCall) (record : Nat)
    (outcome : ToolCallOutcome) (ctx : Option LeaseContext) :
    (∃ call, calls[record]? = some call ∧ mayWrite db now call.runId ctx = true ∧
      persistResult db now calls record outcome ctx
        = (calls.modify record (fun call => call.settle outcome), true)) ∨
    ((∀ call ∈ calls[record]?, mayWrite db now call.runId ctx = false) ∧
      persistResult db now calls record outcome ctx = (calls, false)) := by
  unfold persistResult
  rcases Option.eq_none_or_eq_some calls[record]? with hrow | ⟨call, hrow⟩
  · exact Or.inr ⟨by simp [hrow], by simp only [hrow]⟩
  · simp only [hrow]
    by_cases hmay : mayWrite db now call.runId ctx = true
    · exact Or.inl ⟨call, rfl, hmay, if_pos hmay⟩
    · exact Or.inr ⟨by simpa using hmay, if_neg hmay⟩

/-- What `succeed` writes. -/
def succeed (output : Summary) : ToolCallOutcome :=
  { status := .succeeded, outputSummary := some output }

/-- What `fail` writes: a `ToolError` with a fixed message. -/
def fail (errorCode : String) (retryable : Bool) (errorType : String) : ToolCallOutcome :=
  { status := .failed
    errorCode := some errorCode
    outputSummary := some [("error_code", .str errorCode), ("error_type", .str errorType),
      ("retryable", .bool retryable), ("safe_message", .str "TOOL_REQUEST_REJECTED"),
      ("details_visible_to_model", .bool false)] }

/-- What `unknown` writes. -/
def unknown (errorCode : String) : ToolCallOutcome :=
  { status := .outcomeUnknown, errorCode := some errorCode }

/-- `find_publish_attempt`: the last attempt that is not recorded as
failed. -/
def findPublishAttempt (calls : List AgentToolCall) (runId key : String) : Option Nat :=
  (List.range calls.length).reverse.find? (fun record =>
    calls[record]?.any (fun call => decide (call.AttemptOf runId key ∧ call.status ≠ .failed)))

end ToolCallAuditService

namespace ReconciliationService

/-- `_TOOL_CALL_RUNNING_TIMEOUT`. -/
def toolCallRunningTimeout : Time := seconds (60 * 5)

/-- One row of `_mark_stale_tool_calls_unknown`. -/
def markStale (current : Time) (call : AgentToolCall) : AgentToolCall :=
  if call.status = .running ∧ call.createdAt + toolCallRunningTimeout < current then
    { call with status := .outcomeUnknown, errorCode := some "TOOL_CALL_TIMEOUT" }
  else call

/-- `_mark_stale_tool_calls_unknown`. -/
def markStaleToolCallsUnknown (calls : List AgentToolCall) (current : Time) :
    List AgentToolCall :=
  calls.map (markStale current)

end ReconciliationService

end AgentRuntime
