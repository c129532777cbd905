import AgentRuntime.Model
import AgentRuntime.Lib.Interleave

/-!
# Idempotent requests

`IdempotencyService` and the endpoints that use it. A request looks its key
up, is answered from the record or refused, or else runs its handler and
stores the response; the record is unique for a client, a key and a scope.

The endpoints differ in their sessions. Those of the agent runs look the key
up in a session of its own (`_replay`), which they close and do not commit;
the callbacks and the publication of a document do everything in one session
and commit it once. A lookup that finds a record past its time deletes it in
the session it runs in, so whether the deletion is ever committed depends on
the endpoint (`ApiRequest.ownSession`).

A request is three statements: the lookup, the handler, the commit. The
locks of `FOR UPDATE` only delay requests and are left out. The application
behind the handlers is a parameter, with the one question the service asks
of it: whether the private data of a run is purged.
-/

namespace AgentRuntime

open Keyed Interleave

/-- A row of `idempotency_records`. -/
structure IdempotencyRecord (ρ : Type) where
  id : Nat
  clientId : String
  idempotencyKey : String
  scope : String
  requestHash : String
  responseJson : ρ
  resourceId : String
  expiresAt : Time

variable {σ ρ : Type}

/-- The columns of the unique constraint. -/
def IdempotencyRecord.key (record : IdempotencyRecord ρ) : String × String × String :=
  (record.clientId, record.idempotencyKey, record.scope)

abbrev RecordTable (ρ : Type) := Table (IdempotencyRecord.key (ρ := ρ))

/-- `timedelta(days=n)`. -/
def days (n : Nat) : Time := seconds (86400 * n)

namespace IdempotencyService

/-- `_retain_expired_purge`. -/
def RetainExpiredPurge (purged : String → Bool) (record : IdempotencyRecord ρ) : Prop :=
  record.scope = "purge" ∧ (record.resourceId = "" ∨ purged record.resourceId = false)

instance (purged : String → Bool) (record : IdempotencyRecord ρ) :
    Decidable (RetainExpiredPurge purged record) := by
  unfold RetainExpiredPurge; infer_instance

/-- The record is past its time and not retained. -/
def Lapsed (purged : String → Bool) (now : Time) (record : IdempotencyRecord ρ) : Prop :=
  record.expiresAt < now ∧ ¬ RetainExpiredPurge purged record

instance (purged : String → Bool) (now : Time) (record : IdempotencyRecord ρ) :
    Decidable (Lapsed purged now record) := by
  unfold Lapsed; infer_instance

/-- What a lookup finds. -/
inductive Lookup (ρ : Type)
  | absent
  | lapsed (id : Nat)
  | conflict
  | stored (response : ρ)

/-- `replay`. -/
def replay (purged : String → Bool) (now : Time) (records : RecordTable ρ)
    (key : String × String × String) (digest : String) : Lookup ρ :=
  match records.find? key with
  | none => .absent
  | some record =>
    if Lapsed purged now record then .lapsed record.id
    else if record.requestHash ≠ digest then .conflict
    else .stored record.responseJson

/-- `cleanup_expired`. -/
def cleanupExpired (purged : String → Bool) (cutoff : Time) (records : RecordTable ρ) :
    RecordTable ρ :=
  records.filter (fun record => decide (¬ Lapsed purged cutoff record))

end IdempotencyService

/-- A write request. The handler reads the application and gives what it
changes, the response and the run or archive it is about; `none` where it
raises. -/
structure ApiRequest (σ ρ : Type) where
  clientId : String
  scope : String
  idempotencyKey : String
  requestHash : String
  ttlDays : Nat := 7
  ownSession : Bool
  handler : σ → Option ((σ → σ) × ρ × String)

def ApiRequest.key (request : ApiRequest σ ρ) : String × String × String :=
  (request.clientId, request.idempotencyKey, request.scope)

/-- A committed effect, for the record. -/
structure CommittedEffect where
  key : String × String × String
  at_ : Time
  expiresAt : Time
  deriving DecidableEq, Repr

/-- What the requests share. -/
structure Api (σ ρ : Type) where
  app : σ
  records : RecordTable ρ := Table.empty
  drawn : Nat := 0
  clock : Time := 0
  effects : List CommittedEffect := []

/-- How many effects were committed under a key. -/
def Api.effectsOf (s : Api σ ρ) (key : String × String × String) : Nat :=
  s.effects.countP (fun e => decide (e.key = key))

/-- Where a request stands. `found` is the lapsed record its lookup found,
`since` the effects committed under its key by then (for the record). -/
inductive RequestPhase (σ ρ : Type)
  | entered
  | executing (found : Option Nat) (since : Nat)
  | storing (found : Option Nat) (since : Nat) (update : σ → σ) (response : ρ)
      (resourceId : String)
  | replayed (response : ρ)
  | conflict
  | rejected
  | integrityError
  | committed (response : ρ)

structure RequestCall (σ ρ : Type) where
  request : ApiRequest σ ρ
  phase : RequestPhase σ ρ := .entered

namespace Api

/-- `store`: the row that is inserted. -/
def recordOf (s : Api σ ρ) (request : ApiRequest σ ρ) (response : ρ) (resourceId : String) :
    IdempotencyRecord ρ :=
  { id := s.drawn
    clientId := request.clientId
    idempotencyKey := request.idempotencyKey
    scope := request.scope
    requestHash := request.requestHash
    responseJson := response
    resourceId := resourceId
    expiresAt := s.clock + days request.ttlDays }

/-- The records as the committing session sees them: its own deletion is
pending, one of a session that was closed is not. -/
def visible (s : Api σ ρ) (request : ApiRequest σ ρ) (found : Option Nat) : RecordTable ρ :=
  if request.ownSession then s.records
  else (s.records.deleteWhere request.key (fun record => found = some record.id)).1

/-- The commit of a request: its record is inserted with its effect, or
neither. -/
def commit (s : Api σ ρ) (request : ApiRequest σ ρ) (found : Option Nat) (update : σ → σ)
    (response : ρ) (resourceId : String) : Api σ ρ × RequestPhase σ ρ :=
  match (s.visible request found).insert? (s.recordOf request response resourceId) with
  | none => (s, .integrityError)
  | some records =>
    ({ s with
        app := update s.app
        records := records
        drawn := s.drawn + 1
        effects := ⟨request.key, s.clock, s.clock + days request.ttlDays⟩ :: s.effects },
      .committed response)

/-- The lookup of a request. -/
def lookup (purged : σ → String → Bool) (s : Api σ ρ) (request : ApiRequest σ ρ) :
    RequestPhase σ ρ :=
  match IdempotencyService.replay (purged s.app) s.clock s.records request.key
    request.requestHash with
  | .absent => .executing none (s.effectsOf request.key)
  | .lapsed id => .executing (some id) (s.effectsOf request.key)
  | .conflict => .conflict
  | .stored response => .replayed response

/-- The handler of a request that is to be executed. -/
def handle (s : Api σ ρ) (request : ApiRequest σ ρ) (found : Option Nat) (since : Nat) :
    RequestPhase σ ρ :=
  match request.handler s.app with
  | none => .rejected
  | some (update, response, resourceId) => .storing found since update response resourceId

/-- The next statement of a request. -/
def exec (purged : σ → String → Bool) (s : Api σ ρ) (c : RequestCall σ ρ) :
    Api σ ρ × RequestCall σ ρ :=
  match c.phase with
  | .entered => (s, { c with phase := s.lookup purged c.request })
  | .executing found since => (s, { c with phase := s.handle c.request found since })
  | .storing found _ update response resourceId =>
    ((s.commit c.request found update response resourceId).1,
      { c with phase := (s.commit c.request found update response resourceId).2 })
  | _ => (s, c)

/-- What happens: a request comes in, the maintenance deletes what had
lapsed `age` ago, something else changes the application. -/
inductive ApiOp (σ ρ : Type)
  | request (request : ApiRequest σ ρ)
  | cleanup (age : Time)
  | other (update : σ → σ)

/-- What is left of one of them. -/
inductive ApiCall (σ ρ : Type)
  | request (c : RequestCall σ ρ)
  | cleanup (age : Time)
  | other (update : σ → σ)
  | done

def execCall (purged : σ → String → Bool) (s : Api σ ρ) : ApiCall σ ρ → Api σ ρ × ApiCall σ ρ
  | .request c => ((s.exec purged c).1, .request (s.exec purged c).2)
  | .cleanup age =>
    ({ s with
      records := IdempotencyService.cleanupExpired (purged s.app) (s.clock - age) s.records }, .done)
  | .other update => ({ s with app := update s.app }, .done)
  | .done => (s, .done)

/-- Any number of requests at once. -/
def program (purged : σ → String → Bool) : Program (Api σ ρ) (ApiCall σ ρ) (ApiOp σ ρ) where
  wait s t := { s with clock := s.clock + t }
  call _
    | .request request => some (.request { request := request })
    | .cleanup age => some (.cleanup age)
    | .other update => some (.other update)
  exec := execCall purged

end Api

end AgentRuntime
