import AgentRuntime.CallbackProjection
import AgentRuntime.CallbackStream
import Mathlib.Data.List.Sort

/-!
# Reconciling with the state of the Runtime

`MemoryAgentCallbackReconciliationService` repairs a run reference whose
callbacks were lost. It asks the Runtime for the state of the run, through
`MemoryAgentAdapter.get_run_state`, and moves the reference to it. The Runtime
answers with the row of the run (`AgentRun.detail`), and the callbacks are
events of that row (`CallbackEvent.payload`), so the two can be compared.

A session of the service does not flush before a query, and `refresh` reads
the row again: what was written to the reference before, and not flushed, is
dropped.
-/

namespace AgentRuntime

open Keyed MemoryAgentCallbackService

/-! ## What the Runtime says -/

/-- The statuses under their codes. -/
def RunStatus.code : RunStatus → String
  | pending => "pending"
  | planning => "planning"
  | running => "running"
  | evaluating => "evaluating"
  | waitingHuman => "waiting_human"
  | succeeded => "succeeded"
  | partialSucceeded => "partial"
  | failed => "failed"
  | cancelled => "cancelled"

def DispatchState.code : DispatchState → String
  | held => "held"
  | queued => "queued"
  | claimed => "claimed"
  | finished => "finished"

def PrivacyState.code : PrivacyState → String
  | active => "active"
  | purgeRequested => "purge_requested"
  | purged => "purged"

/-- The answer of `GET /agent-runs/{run_id}`: the entries the adapter reads. -/
def AgentRun.detail (run : AgentRun) : List (String × Json) :=
  [("run_id", .str run.runId), ("status", .str run.status.code),
    ("dispatch_state", .str run.dispatchState.code),
    ("privacy_state", .str run.privacyState.code), ("privacy_version", .int run.privacyVersion),
    ("last_event_seq", .int run.lastEventSeq), ("status_version", .int run.statusVersion)]

/-- The payload of a callback of the run, with the trace that was rendered for
it: the entries `apply` reads. -/
def CallbackEvent.payload (run : AgentRun) (trace : Json) (e : CallbackEvent) :
    List (String × Json) :=
  [("event", .str e.eventType), ("run_id", .str e.runId), ("event_seq", .int e.eventSeq),
    ("status_version", .int e.statusVersion), ("business_id", .str run.businessId),
    ("status", .str e.statusInPayload.code), ("public_trace", trace)]

/-! ## The adapter -/

/-- `RuntimeRunState`. -/
structure RuntimeRunState where
  runId : String
  status : String
  dispatchState : String
  privacyState : String
  privacyVersion : Int
  lastEventSeq : Int
  statusVersion : Int
  deriving DecidableEq, Repr

/-- An integer that is no boolean and not below `least`. -/
def Json.atLeast? (least : Int) : Json → Option Int
  | .int n => if least ≤ n then some n else none
  | _ => none

namespace MemoryAgentAdapter

/-- `allowed_statuses` of `get_run_state`. -/
def allowedStatuses : List String :=
  ["pending", "running", "waiting_human", "succeeded", "failed", "cancelled"]

/-- `allowed_dispatch_states`. -/
def allowedDispatchStates : List String := ["held", "queued", "claimed", "finished"]

/-- `allowed_privacy_states`. -/
def allowedPrivacyStates : List String := ["active", "purge_requested", "purged"]

def queryInvalid : ServiceError := .value "MEMORY_RUNTIME_STATE_QUERY_INVALID"

/-- A text entry with one of the given values. -/
def entryAmong (data : List (String × Json)) (key : String) (allowed : List String) :
    Result String := do
  let value := (Json.get? key data).getD .null
  let known ← value.memberOf allowed
  require (known = true) queryInvalid
  pure (value.str?.getD "")

/-- An integer entry not below `least`. -/
def entryAtLeast (data : List (String × Json)) (key : String) (least : Int) : Result Int :=
  match (Json.get? key data).bind (Json.atLeast? least) with
  | some n => pure n
  | none => .error queryInvalid

/-- What `get_run_state` makes of the answer. -/
def readRunState (runId : String) (data : List (String × Json)) : Result RuntimeRunState := do
  require ((Json.get? "run_id" data).bind Json.str? = some runId) queryInvalid
  let status ← entryAmong data "status" allowedStatuses
  let dispatchState ← entryAmong data "dispatch_state" allowedDispatchStates
  let privacyState ← entryAmong data "privacy_state" allowedPrivacyStates
  let privacyVersion ← entryAtLeast data "privacy_version" 1
  let lastEventSeq ← entryAtLeast data "last_event_seq" 0
  let statusVersion ← entryAtLeast data "status_version" 1
  pure ⟨runId, status, dispatchState, privacyState, privacyVersion, lastEventSeq, statusVersion⟩

/-- `get_run_state`; `request` is the query, which may fail or find nothing. -/
def getRunState (request : String → Result (Option (List (String × Json)))) (runId : String) :
    Result (Option RuntimeRunState) := do
  match ← request runId with
  | none => pure none
  | some data => some <$> readRunState runId data

end MemoryAgentAdapter

/-! ## The service -/

/-- Purged on both sides from now on. -/
def MemoryAgentRunRef.confirmPurge (ref : MemoryAgentRunRef) (now : Time) : MemoryAgentRunRef :=
  { ref with purgeState := "purged", updatedAt := now }

/-- The reference moves on to the state of the Runtime. -/
def MemoryAgentRunRef.follow (ref : MemoryAgentRunRef) (now : Time) (remote : RuntimeRunState) :
    MemoryAgentRunRef :=
  { ref with
    status := remote.status
    eventSeq := remote.lastEventSeq
    statusVersion := remote.statusVersion
    rowVersion := ref.rowVersion + 1
    reconciliationNeeded := false
    updatedAt := now }

namespace MemoryAgentCallbackReconciliationService

/-- `_REF_STATUSES`. -/
def refStatuses : List String :=
  ["pending", "running", "waiting_human", "succeeded", "partial", "failed", "cancelled"]

/-- `_mark_needed`. -/
def markNeeded (db : MemoirDb) (now : Time) (ref : MemoryAgentRunRef) : MemoirDb :=
  { db with runRefs := db.runRefs.put (ref.awaitPublication now) }

/-- `_confirm_purge` has something to confirm. -/
def ConfirmsPurge (ref : MemoryAgentRunRef) (remote : RuntimeRunState) : Prop :=
  remote.privacyState = "purged" ∧ 1 ≤ remote.privacyVersion ∧ ref.purgeState ≠ "purged"

instance (ref : MemoryAgentRunRef) (remote : RuntimeRunState) :
    Decidable (ConfirmsPurge ref remote) := by
  unfold ConfirmsPurge; infer_instance

/-- The end of `reconcile_run`, for the active run. The conditional update
compares with what has just been read under a row lock, so it finds the row. -/
def reconcileTo (db : MemoirDb) (now : Time) (ref : MemoryAgentRunRef) (archive : MemoryArchive)
    (remote : RuntimeRunState) : MemoirDb × Bool :=
  let purgeUpdated := decide (ConfirmsPurge ref remote)
  let confirmed := if purgeUpdated then ref.confirmPurge now else ref
  if remote.lastEventSeq ≤ ref.eventSeq ∨ remote.statusVersion < ref.statusVersion then
    ({ db with runRefs := db.runRefs.put confirmed }, purgeUpdated)
  else if remote.status ∈ ["succeeded", "partial"] ∧
      (archive.publishedRevision = 0 ∨ archive.contentStatus ≠ .succeeded) then
    (markNeeded db now confirmed, purgeUpdated)
  else
    -- `refresh` reads the updated row, without the confirmation.
    ({ db with runRefs := db.runRefs.put (ref.follow now remote) }, true)

/-- `reconcile_run`. -/
def reconcileRun (getRunState : String → Result (Option RuntimeRunState)) (db : MemoirDb)
    (now : Time) (runId : String) : Result (MemoirDb × Bool) :=
  match db.runRefs.find? runId with
  | none => pure (db, false)
  | some ref => do
    match ← getRunState runId with
    | none => pure (markNeeded db now ref, false)
    | some remote =>
      if remote.runId ≠ ref.runId ∨ remote.status ∉ refStatuses then
        pure (markNeeded db now ref, false)
      else
        match db.archives.find? ref.archiveId with
        | none => pure (db, false)
        | some archive =>
          if archive.activeRunId ≠ some ref.runId ∨
              archive.generationEpoch ≠ ref.generationEpoch then pure (db, false)
          else pure (reconcileTo db now ref archive remote)

/-- The references a pass selects, the longest untouched first. -/
def pendingRefs (db : MemoirDb) (limit : Nat) : List String :=
  (((db.runRefs.rows.filter (fun ref => decide (ref.reconciliationNeeded = true ∨
      ref.status ∈ ["pending_start", "pending", "running", "waiting_human"]))).insertionSort
    (fun a b => a.updatedAt ≤ b.updatedAt)).take limit).map (·.runId)

/-- A pass over references: what it returns, and the references it has come
to. -/
structure Pass where
  outcome : Result (MemoirDb × Nat)
  reached : List String

/-- The references one after the other; nothing catches what a query raises. -/
def reconcileEach (getRunState : String → Result (Option RuntimeRunState)) (now : Time) :
    MemoirDb → Nat → List String → Pass
  | db, repaired, [] => ⟨pure (db, repaired), []⟩
  | db, repaired, runId :: runIds =>
    match reconcileRun getRunState db now runId with
    | .error e => ⟨.error e, [runId]⟩
    | .ok (db', applied) =>
      let rest := reconcileEach getRunState now db' (repaired + if applied then 1 else 0) runIds
      ⟨rest.outcome, runId :: rest.reached⟩

/-- `reconcile_pending`. -/
def reconcilePending (getRunState : String → Result (Option RuntimeRunState)) (db : MemoirDb)
    (now : Time) (limit : Nat) : Pass :=
  reconcileEach getRunState now db 0 (pendingRefs db limit)

end MemoryAgentCallbackReconciliationService

end AgentRuntime
