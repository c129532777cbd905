import AgentRuntime.System
import AgentRuntime.ToolGateway
import AgentRuntime.Lib.Interleave

/-!
# The publication of a document

The `publish_document` node of `MemoirNodeRunner`. An execution of the node
looks for an attempt that may have been published; where there is one it
asks the business side and sends nothing, else it begins a new attempt,
sends the request and settles the attempt by how the call ended
(`publishOutcome`, the chain of `except` clauses).

Workers run the node any number of times under the lease of their claim,
next to the services and to the reconciler, which marks attempts that have
run for too long. A statement of a worker is one call of the audit service
or of the gateway; a worker that takes no further statement has crashed.
-/

namespace AgentRuntime

open Keyed Interleave ToolCallAuditService

/-! ## How an attempt is settled -/

/-- `int`. -/
def PyText.int (text : PyText) : Json → Option Int
  | .int n => some n
  | .bool b => some (if b then 1 else 0)
  | .real mantissa scale => some (mantissa.tdiv (Nat.pow 10 scale))
  | .str s => text.parseInt s
  | _ => none

/-- `succeed` with the revision and the digest of an output; `none` where
reading them raises. The digest stands for its `str`. -/
def publication (text : PyText) (output : Summary) : Option ToolCallOutcome :=
  match (Json.get? "revision" output).bind text.int, Json.get? "content_digest" output with
  | some revision, some digest =>
    some (succeed [("revision", .int revision), ("content_digest", digest)])
  | _, _ => none

/-- The attempt is settled from what `get_publish_result` found, if that is
this document. -/
def reconciledOutcome (digest : String) : Option Summary → Option ToolCallOutcome
  | none => none
  | some output =>
    match Json.get? "revision" output, Json.get? "content_digest" output with
    | some (.int revision), some (.str found) =>
      if found = digest then
        some (succeed [("revision", .int revision), ("content_digest", .str digest)])
      else none
    | some (.bool revision), some (.str found) =>
      if found = digest then
        some (succeed [("revision", .bool revision), ("content_digest", .str digest)])
      else none
    | _, _ => none

/-- How the node settles the attempt it has sent; `none` where it raises and
leaves the row running. -/
def publishOutcome (text : PyText) (digest : String) (reply : Except GatewayError Summary)
    (reconciled : Except GatewayError (Option Summary)) : Option ToolCallOutcome :=
  match reply with
  | .ok output => publication text output
  | .error .timeout => some (unknown "HTTP_TIMEOUT")
  | .error (.toolError e) =>
    if e.errorCode = "GENERATION_SUPERSEDED" then
      some (fail e.errorCode false "tool_request_failed")
    else if e.errorCode = "IDEMPOTENCY_CONFLICT" then
      match reconciled with
      | .error (.toolError e') => some (fail e'.errorCode e'.retryable "business_tool_error")
      | .error _ => none
      | .ok found =>
        some ((reconciledOutcome digest found).getD
          (fail e.errorCode e.retryable "business_tool_error"))
    else some (fail e.errorCode e.retryable "business_tool_error")
  | .error (.httpStatus statusCode) =>
    if statusCode = 409 then
      match reconciled with
      | .error _ => none
      | .ok found =>
        some ((reconciledOutcome digest found).getD
          (fail "TOOL_IDEMPOTENCY_CONFLICT" false "tool_request_failed"))
    else some (fail s!"HTTP_{statusCode}" (decide (500 ≤ statusCode)) "tool_request_failed")
  | .error (.other _) => some (fail "TOOL_CALL_FAILED" true "tool_request_failed")

/-- How the node settles an attempt that was there before it. -/
def committedOutcome (text : PyText) :
    Except GatewayError (Option Summary) → Option ToolCallOutcome
  | .ok (some output) => publication text output
  | _ => none

/-! ## Workers -/

/-- One execution of the node: the digest of the document (`none` where the
node refuses before it reads the audit), and what happens on the wire. -/
structure Execution where
  gateway : ToolGateway
  digest : Option String
  reply : Wire
  reconciled : Wire

/-- `logical_key`; `none` where the input has no valid reference. -/
def publishLogicalKey (run : AgentRun) : Option String :=
  match run.inputJson with
  | .obj fields =>
    match Json.get? "archive_id" fields, Json.get? "snapshot_id" fields,
        Json.get? "generation_epoch" fields with
    | some (.str _), some (.str _), some (.int epoch) =>
      some s!"{run.runId}:publish_document:memory.publish_playback_document:{epoch}"
    | some (.str _), some (.str _), some (.bool epoch) =>
      some (s!"{run.runId}:publish_document:memory.publish_playback_document:" ++
        (if epoch then "True" else "False"))
    | _, _, _ => none
  | _ => none

/-- Where a worker stands; `i` is the place of its context among the issued
ones, `record` the attempt in its hands. -/
inductive PublishPhase
  | claiming
  | ready (i : Nat)
  | beginning (i : Nat) (key digest : String) (e : Execution)
  | reconciling (i record : Nat) (e : Execution)
  | sending (i record : Nat) (digest : String) (e : Execution)
  | settling (i record : Nat) (outcome : ToolCallOutcome)
  | ended

/-- A worker on a run, and the executions of the node it has before it. -/
structure Publisher where
  runId : String
  owner : String
  leaseSeconds : Nat
  executions : List Execution
  phase : PublishPhase := .claiming

inductive PublishCall
  | worker (w : Publisher)
  | lifecycle (op : Op)
  | markStale (current : Time)
  | done

inductive PublishAction
  | worker (runId owner : String) (leaseSeconds : Nat) (executions : List Execution)
  | lifecycle (op : Op)
  | markStale

/-- The database with the audit of the tool calls. -/
structure Publishing where
  sys : Sys := {}
  toolCalls : List AgentToolCall := []

namespace Publishing

/-- The context a worker holds passes `can_write` now. -/
def permits (s : Publishing) (i : Nat) : Bool :=
  match s.sys.issued[i]? with
  | none => false
  | some held => LeaseService.canWrite s.sys.db s.sys.clock held.runId held.ctx

def context (s : Publishing) (i : Nat) : Option LeaseContext :=
  (s.sys.issued[i]?).map (·.ctx)

/-- The worker claims its run. -/
def claim (limits : AdmissionLimits) (s : Publishing) (w : Publisher) : Publishing × Publisher :=
  let sys := step limits s.sys { op := .claim w.runId w.owner w.leaseSeconds }
  if s.sys.issued.length < sys.issued.length then
    ({ s with sys := sys }, { w with phase := .ready s.sys.issued.length })
  else ({ s with sys := sys }, { w with phase := .ended })

/-- The next execution of the node, up to `find_publish_attempt`. -/
def find (s : Publishing) (w : Publisher) (i : Nat) : Publisher :=
  match w.executions with
  | [] => { w with phase := .ended }
  | e :: rest =>
    match e.digest, (s.sys.db.runs.find? w.runId).bind publishLogicalKey with
    | some digest, some key =>
      match findPublishAttempt s.toolCalls w.runId key with
      | some record => { w with executions := rest, phase := .reconciling i record e }
      | none => { w with executions := rest, phase := .beginning i key digest e }
    | _, _ => { w with executions := rest }

/-- `begin_publish`. -/
def begin_ (s : Publishing) (w : Publisher) (i : Nat) (key digest : String) (e : Execution) :
    Publishing × Publisher :=
  match s.sys.db.runs.find? w.runId, s.context i with
  | some run, some ctx =>
    match beginPublish s.sys.db s.sys.clock s.toolCalls w.runId run.executionAttempt key key
        digest (some ctx) with
    | .error _ => (s, { w with phase := .ready i })
    | .ok calls =>
      ({ s with toolCalls := calls }, { w with phase := .sending i s.toolCalls.length digest e })
  | _, _ => (s, { w with phase := .ready i })

/-- What the request comes to: the gateway asks for the lease before it
sends. -/
def wire (s : Publishing) (i : Nat) (e : Execution) : Wire :=
  if s.permits i then e.reply else .stopped "TOOL_EXECUTION_CONTEXT_INVALID"

/-- The attempt is settled as `outcome` says, or left as it is. -/
def settleNext (w : Publisher) (i record : Nat) (outcome : Option ToolCallOutcome) : Publisher :=
  match outcome with
  | none => { w with phase := .ready i }
  | some outcome => { w with phase := .settling i record outcome }

/-- The next statement of a worker. -/
def turn (limits : AdmissionLimits) (s : Publishing) (w : Publisher) : Publishing × Publisher :=
  match w.phase with
  | .claiming => s.claim limits w
  | .ready i => (s, s.find w i)
  | .beginning i key digest e => s.begin_ w i key digest e
  | .reconciling i record e =>
    (s, settleNext w i record
      (committedOutcome e.gateway.text (e.gateway.getPublishResult e.reconciled)))
  | .sending i record digest e =>
    (s, settleNext w i record
      (publishOutcome e.gateway.text digest (e.gateway.call (s.wire i e))
        (e.gateway.getPublishResult e.reconciled)))
  | .settling i record outcome =>
    ({ s with
        toolCalls :=
          (persistResult s.sys.db s.sys.clock s.toolCalls record outcome (s.context i)).1 },
      { w with phase := .ready i })
  | .ended => (s, w)

/-- The attempt whose request leaves the worker with its next statement. -/
def sends (s : Publishing) (w : Publisher) : Option Nat :=
  match w.phase with
  | .sending i record _ e =>
    match s.wire i e with
    | .stopped _ => none
    | _ => some record
  | _ => none

def exec (limits : AdmissionLimits) (s : Publishing) : PublishCall → Publishing × PublishCall
  | .worker w => ((s.turn limits w).1, .worker (s.turn limits w).2)
  | .lifecycle op => ({ s with sys := step limits s.sys { op := op } }, .done)
  | .markStale current =>
    ({ s with toolCalls := ReconciliationService.markStaleToolCallsUnknown s.toolCalls current },
      .done)
  | .done => (s, .done)

def enter (s : Publishing) : PublishAction → Option PublishCall
  | .worker runId owner leaseSeconds executions =>
    some (.worker {
      runId := runId, owner := owner, leaseSeconds := leaseSeconds, executions := executions })
  | .lifecycle op => some (.lifecycle op)
  | .markStale => some (.markStale s.sys.clock)

def program (limits : AdmissionLimits) : Program Publishing PublishCall PublishAction where
  wait s elapsed := { s with sys := { s.sys with clock := s.sys.clock + elapsed } }
  call := enter
  exec := exec limits

/-- Workers find no attempt of any publication in the database. -/
def start (db : Db) (clock : Time) : World Publishing PublishCall :=
  { shared := { sys := { db := db, clock := clock } } }

end Publishing

end AgentRuntime
