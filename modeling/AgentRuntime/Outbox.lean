import AgentRuntime.Model

/-!
# The outbox

`OutboxService`: dispatch intents and callback facts are added to the
session of the operation that causes them. A callback takes the next event
number of its run and carries the run's status as it then is, so the caller
must have written the new status first. The unique constraint on
(`run_id`, `event_seq`) makes an insertion with a stale number fail.
-/

namespace AgentRuntime

open Keyed

/-- The frozen callback event names. -/
def callbackEventTypes : List String :=
  ["run_started", "step_changed", "waiting_human", "partial_succeeded",
   "run_succeeded", "run_failed", "run_cancelled"]

/-- `_terminal_callback_event`. -/
def terminalCallbackEvent : RunStatus → Result String
  | .succeeded => .ok "run_succeeded"
  | .partialSucceeded => .ok "partial_succeeded"
  | .failed => .ok "run_failed"
  | .cancelled => .ok "run_cancelled"
  | _ => .error (.value "CALLBACK_EVENT_TYPE_INVALID")

/-- `append_run_dispatch`. -/
def appendRunDispatch (db : Db) (runId reason : String) : Db :=
  { db with outboxNew := db.outboxNew ++ [{ aggregateId := runId, payload := .runDispatch reason }] }

/-- The callback fact of a run as it stands. -/
def callbackOf (run : AgentRun) (event : String) : CallbackEvent :=
  { runId := run.runId
    eventSeq := run.lastEventSeq + 1
    statusVersion := if run.statusVersion = 0 then 1 else run.statusVersion
    eventType := event
    statusInPayload := run.status
    errorInPayload := run.errorCode }

/-- The run after one more event. -/
def AgentRun.nextEvent (run : AgentRun) : AgentRun :=
  { run with lastEventSeq := run.lastEventSeq + 1 }

/-- The outbox row that delivers a callback. -/
def callbackDelivery (run : AgentRun) (event : String) : RuntimeOutboxEvent :=
  { aggregateId := run.runId
    payload := .callback (run.lastEventSeq + 1) event run.callbackTargetId }

/-- `append_callback_event`: `run` is the row as the caller has written it;
its event counter goes up with the insertion. -/
def appendCallbackEvent (db : Db) (run : AgentRun) (event : String) : Result Db := do
  require (event ∈ callbackEventTypes) (.value "CALLBACK_EVENT_TYPE_INVALID")
  match db.callbackEvents.insert? (callbackOf run event) with
  | none => .error .integrity
  | some events =>
    pure { db with
      runs := db.runs.put run.nextEvent
      callbackEvents := events
      outboxNew := db.outboxNew ++ [callbackDelivery run event] }

/-- `append_callback`: the event name of a terminal status. -/
def appendCallback (db : Db) (run : AgentRun) (status : RunStatus) : Result Db := do
  let event ← terminalCallbackEvent status
  appendCallbackEvent db run event

theorem terminalCallbackEvent_ok {status : RunStatus} {event : String}
    (h : terminalCallbackEvent status = .ok event) :
    status.isTerminal = true ∧ event ∈ callbackEventTypes := by
  cases status <;> simp only [terminalCallbackEvent, Except.ok.injEq, reduceCtorEq] at h <;>
    subst h <;> decide

theorem appendCallbackEvent_ok {db db' : Db} {run : AgentRun} {event : String}
    (h : appendCallbackEvent db run event = .ok db') :
    ∃ events, db.callbackEvents.insert? (callbackOf run event) = some events ∧
      db' = { db with
        runs := db.runs.put run.nextEvent
        callbackEvents := events
        outboxNew := db.outboxNew ++ [callbackDelivery run event] } := by
  obtain ⟨_, _, h⟩ := bind_ok.mp h
  split at h
  · cases h
  next events hevents =>
    cases h
    exact ⟨events, hevents, rfl⟩

theorem appendCallback_ok {db db' : Db} {run : AgentRun} {status : RunStatus}
    (h : appendCallback db run status = .ok db') :
    ∃ event, terminalCallbackEvent status = .ok event ∧
      appendCallbackEvent db run event = .ok db' :=
  bind_ok.mp h

end AgentRuntime
