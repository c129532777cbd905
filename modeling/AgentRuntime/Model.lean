import AgentRuntime.Lib.Table

/-!
# The runtime tables

The rows of `app/models/runtime.py` that the run lifecycle reads or writes,
and the database that holds them. A table whose rows are looked up by a
unique column is a `Keyed.Table`, so the unique constraint is part of the
value. Timestamps are microseconds (`Time`); a nullable column is an
`Option`. JSON columns are typed by what the services read from them: a key
that is missing, or whose value has another type, is `none`.

Columns that no modelled operation reads (titles, traces, audit texts) are
left out. Amounts of money are rational numbers.
-/

namespace AgentRuntime

open Keyed

/-- Microseconds since the epoch. -/
abbrev Time := Nat

/-- `timedelta(seconds=n)`. -/
def seconds (n : Nat) : Time := 1000000 * n

/-- `agent_runs.status`. -/
inductive RunStatus
  | pending | planning | running | evaluating | waitingHuman
  | succeeded | partialSucceeded | failed | cancelled
  deriving DecidableEq, Repr

/-- The statuses no worker moves a run out of. -/
def RunStatus.isTerminal : RunStatus → Bool
  | succeeded | partialSucceeded | failed | cancelled => true
  | _ => false

/-- `agent_runs.dispatch_state`. -/
inductive DispatchState
  | held | queued | claimed | finished
  deriving DecidableEq, Repr

/-- `agent_runs.privacy_state`. -/
inductive PrivacyState
  | active | purgeRequested | purged
  deriving DecidableEq, Repr

/-- `agent_definitions.status`. -/
inductive DefinitionStatus
  | active | deprecated | revoked
  deriving DecidableEq, Repr

/-- `runtime_outbox_events.status`. -/
inductive OutboxStatus
  | pending | delivering | delivered | deadLetter
  deriving DecidableEq, Repr

/-- JSON values, as far as an input and its schema need them. A real number
is `mantissa / 10 ^ scale`. -/
inductive Json
  | null
  | bool (b : Bool)
  | int (n : Int)
  | real (mantissa : Int) (scale : Nat)
  | str (s : String)
  | arr (items : List Json)
  | obj (fields : List (String × Json))

/-- `dict.get(key)`. -/
def Json.get? (key : String) (fields : List (String × Json)) : Option Json :=
  fields.lookup key

/-- The execution limits frozen into a run when it is created
(`capability_snapshot_json["execution_policy"]`); a limit that is not set
is absent. -/
structure ExecutionPolicy where
  maxSteps : Option Int := none
  maxToolCalls : Option Int := none
  maxRunSeconds : Option Int := none
  maxAutoRetryPerStep : Option Int := none
  deriving DecidableEq, Repr

/-- The limits on model calls frozen into a run
(`capability_snapshot_json["model_policy"]`). -/
structure RunModelPolicy where
  maxModelCalls : Option Int := none
  maxModelCost : Option Rat := none
  maxTokens : Option Int := none
  deriving DecidableEq, Repr

/-- `agent_plans.steps_json[i]`. `safeToRerun` is `none` where a plan frozen
before the key existed does not have it. -/
structure PlanNode where
  nodeId : String
  nodeType : String := "deterministic"
  nextNodes : List String := []
  canWaitForHuman : Bool := false
  optional : Bool := false
  safeToRerun : Option Bool := some false
  deriving DecidableEq, Repr

/-- `agent_plans.stop_conditions_json`, the entries the services read. -/
structure StopConditions where
  maxRunSeconds : Option Int
  queueTtlSeconds : Option Int
  approvalTtlSeconds : Option Int
  deriving DecidableEq, Repr

/-- `agent_plans.fallback_policy_json`, the entries the services read. -/
structure FallbackPolicy where
  waitingHumanTimeoutAction : Option String := none
  rejectAction : Option String := none
  waitingHumanFallbackNode : Option String := none
  deriving DecidableEq, Repr

structure AgentPlan where
  runId : String
  steps : List PlanNode
  stopConditions : StopConditions
  fallbackPolicy : FallbackPolicy
  deriving DecidableEq, Repr

/-- A node as a registered definition declares it: keys that are absent are
`none` until the schema fills its defaults in. -/
structure RawNode where
  nodeId : String
  nodeType : String
  nextNodes : List String := []
  canWaitForHuman : Bool := false
  optional : Bool := false
  safeToRerun : Option Bool := none
  hasLoopPolicy : Bool := false
  deriving DecidableEq, Repr

/-- `definition_json["policy"]` as registered, before validation.
`extraKeys` are the keys `PackagePolicy` does not declare, `reject_action`
apart. -/
structure RawPolicy where
  waitingHumanTimeoutAction : Option String := none
  waitingHumanFallbackNode : Option String := none
  rejectAction : Option String := none
  maxModelCalls : Option Int := none
  maxModelCost : Option Rat := none
  maxTokens : Option Int := none
  maxSteps : Option Int := none
  maxToolCalls : Option Int := none
  maxRunSeconds : Option Int := none
  maxAutoRetryPerStep : Option Int := none
  extraKeys : List String := []
  deriving DecidableEq, Repr

/-- `agent_definitions.definition_json`. -/
structure DefinitionJson where
  inputSchema : Option Json := none
  allowedBusinessTypes : List String := []
  policy : RawPolicy := {}
  workflowNodes : List RawNode := []

structure AgentDefinition where
  agentId : String
  version : String
  definitionJson : DefinitionJson
  packageDigest : String
  contractVersion : String
  status : DefinitionStatus

/-- The authoritative run ledger. -/
structure AgentRun where
  runId : String
  agentId : String
  agentVersion : String
  packageDigest : String
  callerId : String
  tenantId : String
  callbackTargetId : String := ""
  businessId : String := ""
  status : RunStatus := .pending
  dispatchState : DispatchState := .held
  inputJson : Json := .null
  executionPolicy : Option ExecutionPolicy := none
  modelPolicy : RunModelPolicy := {}
  allowedModelRouteIds : Option (List String) := none
  authorizationVersion : Int := 1
  errorCode : Option String := none
  manualRetryCount : Nat := 0
  statusVersion : Nat := 1
  lastEventSeq : Nat := 0
  executionAttempt : Nat := 0
  leaseOwner : Option String := none
  leaseExpiresAt : Option Time := none
  fencingToken : Nat := 0
  cancelRequestedAt : Option Time := none
  privacyState : PrivacyState := .active
  privacyVersion : Nat := 1
  privacyPurgeRequestedAt : Option Time := none
  privateDataPurgedAt : Option Time := none
  heldExpiresAt : Option Time := none
  queuedAt : Option Time := none
  claimedAt : Option Time := none
  activeElapsedMs : Nat := 0
  runDeadlineAt : Time := 0
  waitingExpiresAt : Option Time := none
  startedAt : Option Time := none
  finishedAt : Option Time := none

/-- The four admission scopes (`scope_type`, `scope_key`). -/
inductive Scope
  | global
  | caller (id : String)
  | tenant (id : String)
  | agent (id : String)
  deriving DecidableEq, Repr

structure AdmissionBucket where
  scope : Scope
  heldCount : Nat := 0
  queuedCount : Nat := 0
  runningCount : Nat := 0
  version : Nat := 1
  deriving DecidableEq, Repr

/-- `agent_steps.input_summary`, the entry the services read. -/
structure StepInputSummary where
  estimatedInputTokens : Option Int := none
  deriving DecidableEq, Repr

/-- `agent_steps.output_summary`; what a loop adds to it is not read. -/
structure StepOutputSummary where
  nodeId : String
  status : String
  deriving DecidableEq, Repr

structure AgentStep where
  stepId : String
  runId : String
  stepName : String
  stepType : String
  status : String
  executionAttempt : Nat
  stepAttempt : Nat := 1
  inputSummary : Option StepInputSummary := none
  outputSummary : Option StepOutputSummary := none
  errorCode : Option String := none
  deriving DecidableEq, Repr

/-- The step without its summaries. -/
def AgentStep.wiped (step : AgentStep) : AgentStep :=
  { step with inputSummary := none, outputSummary := none }

/-- The routing state a checkpoint holds once decrypted. `extraKeys` are the
keys outside the whitelist that a checkpoint of an older release carries. -/
structure CheckpointState where
  completedSteps : Nat := 0
  completedNodeIds : List String := []
  resumeFromNodeId : Option String := none
  extraKeys : List String := []
  deriving DecidableEq, Repr

structure AgentCheckpoint where
  runId : String
  checkpointKey : String
  privacyVersion : Nat
  state : CheckpointState
  createdAt : Time
  expiresAt : Time
  deriving DecidableEq, Repr

/-- The frozen callback facts; `statusInPayload` is `payload_json["status"]`. -/
structure CallbackEvent where
  runId : String
  eventSeq : Nat
  statusVersion : Nat
  eventType : String
  statusInPayload : RunStatus
  errorInPayload : Option String := none
  deriving DecidableEq, Repr

def CallbackEvent.key (e : CallbackEvent) : String × Nat := (e.runId, e.eventSeq)

/-- What an outbox row delivers. -/
inductive OutboxPayload
  | runDispatch (reason : String)
  | callback (eventSeq : Nat) (eventType : String) (targetId : String)
  deriving DecidableEq, Repr

/-- A row of the outbox; `aggregateId` is the run. -/
structure RuntimeOutboxEvent where
  aggregateId : String
  payload : OutboxPayload
  status : OutboxStatus := .pending
  leaseExpiresAt : Option Time := none
  deriving DecidableEq, Repr

def RuntimeOutboxEvent.isRunDispatch (e : RuntimeOutboxEvent) : Bool :=
  match e.payload with
  | .runDispatch _ => true
  | .callback .. => false

/-- One call of `transition_run`, as it logs it; `clipped` records whether
the `max(0, …)` of the release had to clip in some scope. -/
structure AdmissionMove where
  runId : String
  source : Option DispatchState
  target : DispatchState
  clipped : Bool
  deriving DecidableEq, Repr

abbrev RunTable := Table AgentRun.runId
abbrev BucketTable := Table AdmissionBucket.scope
abbrev CallbackTable := Table CallbackEvent.key

/-- The database as one session sees it. `outboxNew` are rows added to the
session and not flushed yet: sessions run with `autoflush=False`, so a query
of the same transaction does not see them. -/
structure Db where
  definitions : List AgentDefinition := []
  runs : RunTable := Table.empty
  plans : List AgentPlan := []
  steps : List AgentStep := []
  checkpoints : List AgentCheckpoint := []
  buckets : BucketTable := Table.empty
  callbackEvents : CallbackTable := Table.empty
  outbox : List RuntimeOutboxEvent := []
  outboxNew : List RuntimeOutboxEvent := []
  admissionLog : List AdmissionMove := []

/-- How an operation can fail; every failure rolls the transaction back. -/
inductive ServiceError
  | service (message : String)
  | admissionRejected (code : String)
  | value (message : String)
  | integrity
  deriving DecidableEq, Repr

abbrev Result := Except ServiceError

/-- Stop with `e` unless `c` holds. -/
def require (c : Prop) [Decidable c] (e : ServiceError) : Result Unit :=
  if c then .ok () else .error e

/-- `session.commit()`: the rows added to the session are flushed. -/
def Db.commit (db : Db) : Db :=
  { db with outbox := db.outbox ++ db.outboxNew, outboxNew := [] }

/-- `select(AgentPlan).where(AgentPlan.run_id == run_id)`. -/
def Db.plan? (db : Db) (runId : String) : Option AgentPlan :=
  db.plans.find? (fun p => p.runId = runId)

def Db.definition? (db : Db) (agentId version : String) : Option AgentDefinition :=
  db.definitions.find? (fun d => d.agentId = agentId ∧ d.version = version)

@[simp] theorem require_ok {c : Prop} [Decidable c] {e : ServiceError} {u : Unit} :
    require c e = .ok u ↔ c := by
  unfold require
  by_cases h : c <;> simp [h]

/-- A successful sequence of steps comes from successful steps. -/
theorem bind_ok {α β : Type} {x : Result α} {f : α → Result β} {b : β} :
    (x >>= f) = .ok b ↔ ∃ a, x = .ok a ∧ f a = .ok b := by
  cases x with
  | error e => simp [bind, Except.bind]
  | ok a => simp [bind, Except.bind]

end AgentRuntime
