import AgentRuntime.Lease
import AgentRuntime.Planner

/-!
# The control plane

`AgentRunService`: what a caller does to a run through the API. Creation,
start, cancel, purge and retry write the run through the ORM: the row they
loaded decides, and the columns they assigned are flushed at the commit.
`approve` is a conditional update. Each operation here is one committed
transaction; `Race` splits the ORM ones into their read and their commit.
-/

namespace AgentRuntime

open Keyed Fencing

/-! ## Input schema -/

/-- The declared `type` of a field accepts the value. A boolean is no
number. -/
def jsonTypeAccepts (expected : String) : Json → Bool
  | .null => !(expected ∈ ["string", "integer", "number", "boolean", "object", "array"])
  | .bool _ => !(expected ∈ ["string", "integer", "number", "object", "array"])
  | .int _ => !(expected ∈ ["string", "boolean", "object", "array"])
  | .real .. => !(expected ∈ ["string", "integer", "boolean", "object", "array"])
  | .str _ => !(expected ∈ ["integer", "number", "boolean", "object", "array"])
  | .arr _ => !(expected ∈ ["string", "integer", "number", "boolean", "object"])
  | .obj _ => !(expected ∈ ["string", "integer", "number", "boolean", "array"])

/-- A number as a fraction. -/
def Json.number? : Json → Option (Int × Nat)
  | .int n => some (n, 1)
  | .real mantissa scale => some (mantissa, Nat.pow 10 scale)
  | _ => none

/-- `value < minimum`, when both are numbers. -/
def Json.lessThan (value minimum : Json) : Bool :=
  match value.number?, minimum.number? with
  | some (a, b), some (c, d) => decide (a * d < c * b)
  | _, _ => false

/-- One property of the schema against the value given for it. -/
def fieldAccepts (fieldSchema value : Json) : Bool :=
  match fieldSchema with
  | .obj schema =>
    match Json.get? "type" schema with
    | some (.str expected) =>
      jsonTypeAccepts expected value &&
        !(decide (expected ∈ ["integer", "number"]) &&
          ((Json.get? "minimum" schema).map value.lessThan).getD false)
    | _ => true
  | _ => true

/-- The key list of a `required` entry. -/
def stringKeys : List Json → Option (List String)
  | [] => some []
  | .str s :: rest => (stringKeys rest).map (s :: ·)
  | _ :: _ => none

/-- `_validate_input_schema`. -/
def validateInputSchema (schema : Option Json) (value : Json) : Result Unit :=
  let invalid := ServiceError.service "input schema 配置非法"
  let rejected := ServiceError.service "input schema 校验失败"
  match schema with
  | none => .ok ()
  | some .null => .ok ()
  | some (.obj s) => do
    match Json.get? "type" s with
    | some (.str "object") => pure ()
    | _ => .error invalid
    match value with
    | .obj fields =>
      let required ← match Json.get? "required" s with
        | none => pure []
        | some (.arr keys) => match stringKeys keys with
          | some ks => pure ks
          | none => .error invalid
        | some _ => .error invalid
      require (required.all (fun k => (Json.get? k fields).isSome)) rejected
      let properties ← match Json.get? "properties" s with
        | none => pure []
        | some (.obj ps) => pure ps
        | some _ => .error invalid
      let closed := match Json.get? "additionalProperties" s with
        | some (.bool false) => true
        | _ => false
      require (closed = true → fields.all (fun f => (Json.get? f.1 properties).isSome)) rejected
      require (properties.all (fun p =>
        match Json.get? p.1 fields with
        | none => true
        | some v => fieldAccepts p.2 v)) rejected
    | _ => .error rejected
  | some _ => .error invalid

/-! ## Create -/

inductive StartMode
  | held | auto
  deriving DecidableEq, Repr

/-- `CreateRunCommand` with the identity the API layer adds. -/
structure CreateRunCommand where
  agentId : String
  agentVersion : String
  businessType : String := ""
  businessId : String := ""
  input : Json := .obj []
  startMode : StartMode := .held
  callbackTargetId : String := ""

/-- The row `create` inserts. -/
def newRun (runId : String) (command : CreateRunCommand) (definition : AgentDefinition)
    (policy : PackagePolicy) (callerId tenantId : String) (authorizationVersion : Int)
    (now : Time) : AgentRun :=
  { runId := runId
    agentId := command.agentId
    agentVersion := command.agentVersion
    packageDigest := definition.packageDigest
    callerId := callerId
    tenantId := tenantId
    callbackTargetId := command.callbackTargetId
    businessId := command.businessId
    status := .pending
    dispatchState := if command.startMode = .held then .held else .queued
    inputJson := command.input
    executionPolicy := some policy.executionPolicy
    modelPolicy := policy.modelPolicy
    authorizationVersion := authorizationVersion
    heldExpiresAt := if command.startMode = .held then some (now + seconds 600) else none
    queuedAt := if command.startMode = .auto then some now else none
    runDeadlineAt := now + seconds 86400
    statusVersion := 1 }

namespace AgentRunService

/-- `create`; `runId` is the fresh identifier it draws. -/
def create (limits : AdmissionLimits) (db : Db) (now : Time) (runId : String)
    (command : CreateRunCommand) (callerId tenantId : String) (authorizationVersion : Int) :
    Result Db := do
  match db.definition? command.agentId command.agentVersion with
  | none => .error (.service "AgentPackage 不可用于创建 Run")
  | some definition =>
    require (definition.status = .active) (.service "AgentPackage 不可用于创建 Run")
    validateInputSchema definition.definitionJson.inputSchema command.input
    let allowed := definition.definitionJson.allowedBusinessTypes
    require (allowed = [] ∨ command.businessType ∈ allowed)
      (.service "business_type 未获 AgentPackage 授权")
    let policy ← PackagePolicy.modelValidate definition.definitionJson.policy
    require (1 ≤ authorizationVersion) (.service "authorization_version 非法")
    let run := newRun runId command definition policy callerId tenantId authorizationVersion now
    match db.runs.insert? run with
    | none => .error .integrity
    | some runs =>
      let db₁ ← transitionRun limits { db with runs := runs } run none run.dispatchState
      let plan ← createPlanFromDefinition runId definition.definitionJson
      let db₂ := { db₁ with plans := db₁.plans ++ [plan] }
      pure (Db.commit
        (if command.startMode = .auto then appendRunDispatch db₂ runId "auto_create" else db₂))

/-! ## Loading and checking a run -/

/-- `_owned_run`. -/
def ownedRun (db : Db) (runId callerId : String) (allowAuditor : Bool := false) :
    Result AgentRun :=
  match db.runs.find? runId with
  | none => .error (.service "Run 不存在或无访问权限")
  | some run =>
    if run.callerId ≠ callerId ∧ allowAuditor = false then
      .error (.service "Run 不存在或无访问权限")
    else .ok run

/-- `_assert_authorization_current`; without a resolver nothing is
checked. -/
def assertAuthorizationCurrent (resolver : Option (AgentRun → Option Int)) (run : AgentRun) :
    Result Unit :=
  match resolver with
  | none => .ok ()
  | some current =>
    require (current run = some run.authorizationVersion) (.service "授权版本已变化")

/-- `_assert_frozen_package_definition`. -/
def assertFrozenPackageDefinition (db : Db) (run : AgentRun) (action : String) : Result Unit :=
  match db.definition? run.agentId run.agentVersion with
  | none => .error (.service ("AgentPackage 不可执行，禁止 " ++ action))
  | some d => do
    require (d.status = .active) (.service ("AgentPackage 不可执行，禁止 " ++ action))
    require (d.packageDigest = run.packageDigest) (.service "AgentPackage digest 不匹配，禁止操作")

/-- The optional `expected_status_version`. -/
def assertExpectedVersion (run : AgentRun) (expected : Option Nat) : Result Unit :=
  require (∀ v ∈ expected, run.statusVersion = v) (.service "状态版本冲突")

end AgentRunService

/-! ## What the operations write -/

namespace AgentRun

def start (run : AgentRun) (now : Time) : AgentRun :=
  { run with dispatchState := .queued, queuedAt := some now }

def requestCancel (run : AgentRun) (now : Time) : AgentRun :=
  { run with cancelRequestedAt := some now }

/-- A run nobody executes is cancelled at once. -/
def cancelNow (run : AgentRun) (now : Time) : AgentRun :=
  { run with
    cancelRequestedAt := some now
    status := .cancelled
    dispatchState := .finished
    statusVersion := run.statusVersion + 1 }

def requestPurge (run : AgentRun) (now : Time) : AgentRun :=
  { run with
    privacyState := .purgeRequested
    privacyVersion := run.privacyVersion + 1
    privacyPurgeRequestedAt := some now
    cancelRequestedAt := some now }

def purge (run : AgentRun) (now : Time) : AgentRun :=
  { run with
    inputJson := .obj []
    privacyState := .purged
    privateDataPurgedAt := some now }

def retry (run : AgentRun) (now : Time) : AgentRun :=
  { run with
    manualRetryCount := run.manualRetryCount + 1
    status := .pending
    dispatchState := .queued
    queuedAt := some now
    statusVersion := run.statusVersion + 1 }

/-- A human decision puts the waiting run back into the queue. -/
def decideQueued (run : AgentRun) (now : Time) (errorCode : Option String) : AgentRun :=
  { run with
    errorCode := errorCode
    dispatchState := .queued
    queuedAt := some now
    statusVersion := run.statusVersion + 1 }

def rejectFailed (run : AgentRun) : AgentRun :=
  { run with
    status := .failed
    dispatchState := .finished
    statusVersion := run.statusVersion + 1 }

/-- Held, queued, or waiting for a human: `cancel` ends such a run itself. -/
def Unattended (run : AgentRun) : Prop :=
  run.dispatchState = .held ∨ run.dispatchState = .queued ∨
    (run.status = .waitingHuman ∧ run.dispatchState = .finished)

instance (run : AgentRun) : Decidable run.Unattended := by
  unfold Unattended; infer_instance

end AgentRun

namespace AgentRunService

/-! ## Start, cancel, purge -/

/-- The checks `start` makes on the row it loaded. -/
def startCheck (db : Db) (now : Time) (resolver : Option (AgentRun → Option Int))
    (run : AgentRun) (expected : Option Nat) : Result Unit := do
  assertAuthorizationCurrent resolver run
  assertExpectedVersion run expected
  assertFrozenPackageDefinition db run "start"
  require (run.privacyState = .active ∧ run.cancelRequestedAt = none)
    (.service "Run 已取消或处于私密数据清理状态")
  if run.dispatchState = .queued ∨ run.dispatchState = .claimed then pure ()
  else do
    require (run.dispatchState = .held ∧ run.status = .pending) (.service "Run 当前状态不允许 start")
    require (∀ t ∈ run.heldExpiresAt, now ≤ t) (.service "held Run 已过期")

/-- `start`. -/
def start (limits : AdmissionLimits) (db : Db) (now : Time)
    (resolver : Option (AgentRun → Option Int)) (runId callerId : String)
    (expected : Option Nat) : Result Db := do
  let run ← ownedRun db runId callerId
  startCheck db now resolver run expected
  if run.dispatchState = .queued ∨ run.dispatchState = .claimed then pure db
  else do
    let run' := run.start now
    let db' ← transitionRun limits { db with runs := db.runs.put run' } run' (some .held) .queued
    pure (appendRunDispatch db' runId "explicit_start").commit

/-- `cancel`. -/
def cancel (limits : AdmissionLimits) (db : Db) (now : Time) (runId callerId : String) :
    Result Db := do
  let run ← ownedRun db runId callerId
  if run.Unattended then do
    let run' := run.cancelNow now
    let db₁ ← transitionRun limits { db with runs := db.runs.put run' } run'
      (some run.dispatchState) .finished
    let db₂ ← appendCallback db₁ run' .cancelled
    pure db₂.commit
  else pure (Db.commit { db with runs := db.runs.put (run.requestCancel now) })

/-- `purge`. -/
def purge (db : Db) (now : Time) (runId callerId : String) : Result Db := do
  let run ← ownedRun db runId callerId
  if run.privacyState = .active then
    pure (Db.commit { db with runs := db.runs.put (run.requestPurge now) })
  else pure db

/-- `complete_purge`; the caller commits. -/
def completePurge (db : Db) (now : Time) (runId : String) : Result (Db × Bool) :=
  match db.runs.find? runId with
  | none => .error (.service "Run 不存在")
  | some run =>
    match run.privacyState with
    | .purged => pure (db, false)
    | .active => .error (.service "Run 未请求私密数据清理")
    | .purgeRequested =>
      pure ({ db with
        runs := db.runs.put (run.purge now)
        checkpoints := db.checkpoints.filter (fun c => c.runId ≠ runId)
        steps := db.steps.map (fun s => if s.runId = runId then s.wiped else s) }, true)

/-! ## Retry and approve -/

/-- `_assert_partial_retryable`: only failed optional steps after the
publication may be made up for. -/
def assertPartialRetryable (db : Db) (run : AgentRun) : Result Unit :=
  match db.plan? run.runId with
  | none => .error (.service "partial Run 缺少计划，禁止 retry")
  | some plan =>
    let optionalIds := (plan.steps.filter (·.optional)).map (·.nodeId)
    let steps := db.steps.filter (fun s => s.runId = run.runId)
    let failedNames := (steps.filter (fun s => s.status = "failed")).map (·.stepName)
    let published := steps.any
      (fun s => s.stepName = "publish_document" ∧ s.status = "succeeded")
    require (published = true ∧ failedNames ≠ [] ∧
        failedNames.all (fun n => decide (n ∈ optionalIds)) = true)
      (.service "partial Run 不满足可选步骤 retry 条件")

/-- The checks `retry` makes on the row it loaded. -/
def retryCheck (db : Db) (resolver : Option (AgentRun → Option Int)) (run : AgentRun)
    (expected : Option Nat) : Result Unit := do
  assertAuthorizationCurrent resolver run
  assertExpectedVersion run expected
  require ((run.status = .failed ∨ run.status = .partialSucceeded) ∧ run.manualRetryCount < 3)
    (.service "Run 当前状态不允许 retry")
  require (run.privacyState = .active) (.service "私密数据清理中的 Run 禁止 retry")
  require (db.checkpoints.any (fun c => c.runId = run.runId))
    (.service "Run 缺少 checkpoint，禁止 retry")
  if run.status = .partialSucceeded then assertPartialRetryable db run else pure ()
  assertFrozenPackageDefinition db run "retry"

/-- `retry`. -/
def retry (limits : AdmissionLimits) (db : Db) (now : Time)
    (resolver : Option (AgentRun → Option Int)) (runId callerId : String)
    (allowAuditor : Bool) (expected : Option Nat) : Result Db := do
  let run ← ownedRun db runId callerId allowAuditor
  retryCheck db resolver run expected
  let run' := run.retry now
  let db' ← transitionRun limits { db with runs := db.runs.put run' } run' (some .finished) .queued
  pure (appendRunDispatch db' runId "manual_retry").commit

/-- Whether a rejection falls back instead of failing the run. -/
def rejectsToFallback (db : Db) (runId : String) : Bool :=
  match db.plan? runId with
  | none => false
  | some plan => decide (plan.fallbackPolicy.rejectAction = some "fallback")

/-- `approve`; `decision` is the string of the request. -/
def approve (limits : AdmissionLimits) (db : Db) (now : Time) (runId callerId decision : String)
    (expectedVersion : Nat) : Result Db := do
  let run ← ownedRun db runId callerId
  require (run.status = .waitingHuman ∧ run.dispatchState = .finished ∧
      run.statusVersion = expectedVersion) (.service "人工审批状态版本冲突")
  assertFrozenPackageDefinition db run "approve"
  if decision = "approve" then do
    let run' := run.decideQueued now none
    let db' ← transitionRun limits { db with runs := db.runs.put run' } run'
      (some .finished) .queued
    pure (appendRunDispatch db' runId "human_approve").commit
  else if rejectsToFallback db runId = true then do
    let run' := run.decideQueued now (some "WAITING_HUMAN_FALLBACK")
    let db' ← transitionRun limits { db with runs := db.runs.put run' } run'
      (some .finished) .queued
    pure (appendRunDispatch db' runId "human_reject_fallback").commit
  else do
    let run' := run.rejectFailed
    let db' ← appendCallback { db with runs := db.runs.put run' } run' .failed
    pure db'.commit

end AgentRunService

end AgentRuntime
