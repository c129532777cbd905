import AgentRuntime.PolicyEngine
import AgentRuntime.Lib.Interleave

/-!
# One attempt of the model gateway

`_call_route` and `_send_activated_attempt`, statement by statement. The
reservation is committed before the traffic permit is asked for; the
activation is flushed, and committed by `mark_started`; the settlement is
flushed, and committed by whoever called. A flushed update holds the lock of
its row, so no other session sees it or comes between it and its commit: the
model carries the flushed updates in the attempt (`flushed`) and applies
them at the commit.

What the gateway does not decide itself (governance, the permit, the
provider's answer, where a call raises, how long the process lives) is the
`Fate` of the attempt.
-/

namespace AgentRuntime

open Keyed Interleave

/-- The status of a `ModelGatewayResult`. -/
inductive GatewayStatus
  | routeNotAllowed | governanceDenied | capabilityDisabled | endpointRejected
  | circuitOpen | policyDenied | permitDenied | abortedBeforeSend
  | rateLimited | outcomeUnknown | responseDiscarded | succeeded
  deriving DecidableEq, Repr

/-- How a call outside the gateway answers. -/
inductive Reply
  | yes | no | raises
  deriving DecidableEq, Repr

/-- What comes of the request once the right to send is established. -/
inductive ProviderReply
  | notSent
  | interrupted (requestId : Option String := none)
  | rateLimited
  | unknown
  | discarded (requestId : Option String)
  | succeeded (requestId : Option String) (inputTokens outputTokens : Option Int)
  deriving DecidableEq, Repr

/-- What the world holds for an attempt. `refusal` is an answer given before
the budget is asked; `lives` is how many statements the process still runs;
`commits` whether the caller commits the session afterwards. -/
structure Fate where
  refusal : Option GatewayStatus := none
  attached : Reply := .yes
  acquired : Reply := .yes
  activates : Reply := .yes
  sendable : Reply := .yes
  provider : ProviderReply := .notSent
  settles : Bool := true
  permitSettles : Bool := true
  lives : Nat := 100
  commits : Bool := true
  deriving DecidableEq, Repr

/-- An update an attempt has flushed. -/
inductive Flush
  | prompt (promptId promptVersion : String)
  | activate (permitId : String)
  | settle (p : ModelUsageService.PendingSettle)

/-- Where an attempt stands, with the row it has reserved. `sent` says
whether `mark_started` has committed. -/
inductive Phase
  | entered
  | reserved (usageId : Nat)
  | attached (usageId : Nat)
  | granted (usageId : Nat)
  | activated (usageId : Nat)
  | started (usageId : Nat)
  | settling (usageId : Nat) (sent : Bool) (reply : ProviderReply)
  | returned (usageId : Nat) (sent : Bool) (status : Option GatewayStatus)
  | closed (status : Option GatewayStatus)

/-- A call of `_call_route`. -/
structure Attempt where
  ctx : ModelCallContext
  route : ModelRoute
  prompt : Option (String × String) := none
  permitId : String := ""
  fate : Fate := {}
  lives : Nat
  phase : Phase := .entered
  flushed : List Flush := []

/-- The ledger as committed; `drawn` identifiers have been drawn so far. -/
structure Gateway where
  sys : Sys := {}
  usages : UsageTable := Table.empty
  drawn : Nat := 0

def Gateway.ledger (g : Gateway) : Ledger := ⟨g.sys.db, g.usages⟩

namespace Gateway

/-- Apply a flushed update of the row `u`. -/
def applyFlush (u : Nat) (usages : UsageTable) : Flush → UsageTable
  | .prompt promptId promptVersion =>
    (usages.updateWhere u (fun r => r.status = .reserved)
      (fun r => r.attachPrompt promptId promptVersion)).1
  | .activate permitId => (ModelUsageService.activateReservation usages u permitId).1
  | .settle p => (ModelUsageService.settleWrite usages p).1

/-- The table once the session of an attempt commits. -/
def flushAll (u : Nat) (usages : UsageTable) (flushed : List Flush) : UsageTable :=
  flushed.foldl (applyFlush u) usages

/-- `reserve` with nothing in between its two halves. -/
def reserve (g : Gateway) (ctx : ModelCallContext) (route : ModelRoute) : Option Gateway :=
  match PolicyEngine.reserveRead g.ledger g.sys.clock ctx route with
  | .error _ => none
  | .ok version =>
    match PolicyEngine.reserveWrite g.ledger ctx route version g.drawn with
    | .ok (some l) =>
      some { sys := { g.sys with db := l.db }, usages := l.usages, drawn := g.drawn + 1 }
    | _ => none

/-- A reservation inserts its row under the identifier it draws. -/
theorem reserve_ok {g g' : Gateway} {ctx : ModelCallContext} {route : ModelRoute}
    (h : g.reserve ctx route = some g') :
    ∃ usages db, g.usages.insert? (PolicyEngine.newUsage g.usages ctx route g.drawn)
        = some usages ∧
      g' = { sys := { g.sys with db := db }, usages := usages, drawn := g.drawn + 1 } := by
  unfold reserve at h
  split at h
  · cases h
  · split at h
    next l hl =>
      cases h
      obtain ⟨_, _, _, usages, hins, rfl⟩ := PolicyEngine.reserveWrite_ok hl
      exact ⟨usages, _, hins, rfl⟩
    · cases h

/-- `cancel_reservation`, in the session of an attempt. -/
def cancel (g : Gateway) (u : Nat) (flushed : List Flush) : Gateway :=
  { g with usages := (ModelUsageService.cancelReservation (flushAll u g.usages flushed) u).1 }

/-- What `_send_activated_attempt` settles for a reply. -/
def settlementOf (route : ModelRoute) : ProviderReply → Settlement
  | .notSent => { outcome := .abortedBeforeSend }
  | .interrupted requestId => { outcome := .abortedBeforeSend, providerRequestId := requestId }
  | .rateLimited => { outcome := .rateLimited }
  | .unknown => { outcome := .outcomeUnknown }
  | .discarded requestId => { outcome := .outcomeUnknown, providerRequestId := requestId }
  | .succeeded requestId inputTokens outputTokens =>
    { outcome := .succeeded
      inputTokens := inputTokens
      outputTokens := outputTokens
      route := some route
      providerRequestId := requestId }

/-- The status it returns for a reply; a success that the two ledgers did
not confirm is returned as unknown, and an interruption raises. -/
def statusOf (settled : Bool) : ProviderReply → Option GatewayStatus
  | .notSent => some .abortedBeforeSend
  | .interrupted _ => none
  | .rateLimited => some .rateLimited
  | .unknown => some .outcomeUnknown
  | .discarded _ => some .responseDiscarded
  | .succeeded .. => some (if settled then .succeeded else .outcomeUnknown)

/-- `attach_prompt_ref` and `attach_thinking_summary`. -/
def attach (g : Gateway) (a : Attempt) (u : Nat) : Gateway × Attempt :=
  match a.prompt with
  | none => (g, { a with phase := .attached u })
  | some (promptId, promptVersion) =>
    if a.fate.attached = .raises then (g, { a with phase := .closed none })
    else
      match ModelUsageService.attachPromptRef g.usages u promptId promptVersion with
      | .error _ => (g, { a with phase := .closed none })
      | .ok (_, matched) =>
        if matched = true ∧ a.fate.attached = .yes then
          (g, { a with
            phase := .attached u
            flushed := a.flushed ++ [.prompt promptId promptVersion] })
        else (g.cancel u a.flushed, { a with phase := .closed (some .abortedBeforeSend) })

/-- The traffic permit. -/
def acquire (g : Gateway) (a : Attempt) (u : Nat) : Gateway × Attempt :=
  match a.fate.acquired with
  | .yes => (g, { a with phase := .granted u })
  | .no => (g.cancel u a.flushed, { a with phase := .closed (some .permitDenied) })
  | .raises => (g, { a with phase := .closed none })

/-- `activate_reservation`, flushed. -/
def activate (g : Gateway) (a : Attempt) (u : Nat) : Gateway × Attempt :=
  if a.fate.activates = .raises then (g, { a with phase := .closed none })
  else if (ModelUsageService.activateReservation g.usages u a.permitId).2 = true then
    (g, { a with phase := .activated u, flushed := a.flushed ++ [.activate a.permitId] })
  else (g, { a with phase := .closed (some .abortedBeforeSend) })

/-- The last checks and `mark_started`, which commits. Where a check fails
or raises, the `finally` settles the attempt as not sent. -/
def start (g : Gateway) (a : Attempt) (u : Nat) : Gateway × Attempt :=
  match a.fate.sendable with
  | .yes =>
    match ModelUsageService.markStarted (flushAll u g.usages a.flushed) u with
    | (usages, true) =>
      ({ g with usages := usages }, { a with phase := .started u, flushed := [] })
    | (usages, false) =>
      ({ g with usages := usages }, { a with phase := .settling u true .notSent, flushed := [] })
  | .no => (g, { a with phase := .settling u false .notSent })
  | .raises => (g, { a with phase := .settling u false .interrupted })

/-- `_settle_activated_attempt`: where the settlement raises, nothing is
flushed. -/
def settle (g : Gateway) (a : Attempt) (u : Nat) (sent : Bool) (reply : ProviderReply) :
    Gateway × Attempt :=
  let view := flushAll u g.usages a.flushed
  match a.fate.settles, ModelUsageService.settleRead view u (settlementOf a.route reply) with
  | true, .ok (some p) =>
    (g, { a with
      phase := .returned u sent (statusOf a.fate.permitSettles reply)
      flushed := a.flushed ++ [.settle p] })
  | _, _ => (g, { a with phase := .returned u sent (statusOf false reply) })

/-- The next statement of an attempt whose process lives. -/
def advance (g : Gateway) (a : Attempt) : Gateway × Attempt :=
  match a.phase with
  | .entered =>
    match a.fate.refusal with
    | some status => (g, { a with phase := .closed (some status) })
    | none =>
      match g.reserve a.ctx a.route with
      | none => (g, { a with phase := .closed (some .policyDenied) })
      | some g' => (g', { a with phase := .reserved g.drawn })
  | .reserved u => g.attach a u
  | .attached u => g.acquire a u
  | .granted u => g.activate a u
  | .activated u => g.start a u
  | .started u => (g, { a with phase := .settling u true a.fate.provider })
  | .settling u sent reply => g.settle a u sent reply
  | .returned u _ status =>
    if a.fate.commits then
      ({ g with usages := flushAll u g.usages a.flushed }, { a with phase := .closed status })
    else (g, { a with phase := .closed status })
  | .closed _ => (g, a)

/-- The next statement of an attempt, if its process lives to run it. -/
def exec (g : Gateway) (a : Attempt) : Gateway × Attempt :=
  if a.lives = 0 then (g, { a with phase := .closed none })
  else g.advance { a with lives := a.lives - 1 }

/-- What the gateway is asked for. -/
structure CallRoute where
  ctx : ModelCallContext
  route : ModelRoute
  prompt : Option (String × String) := none
  permitId : String := ""
  fate : Fate := {}

/-- A call enters with its fate. -/
def enter (c : CallRoute) : Attempt :=
  { ctx := c.ctx
    route := c.route
    prompt := c.prompt
    permitId := c.permitId
    fate := c.fate
    lives := c.fate.lives }

/-- What happens: an attempt is called for, the reconciler passes over the
expired rows, a run goes through an operation of its lifecycle. -/
inductive GatewayOp
  | callRoute (c : CallRoute)
  | markExpired (current : Time)
  | lifecycle (op : Op)

/-- What is left of one of them. -/
inductive Running
  | attempt (a : Attempt)
  | markExpired (current : Time)
  | lifecycle (op : Op)
  | done

def execRunning (limits : AdmissionLimits) (g : Gateway) : Running → Gateway × Running
  | .attempt a => ((g.exec a).1, .attempt (g.exec a).2)
  | .markExpired current =>
    ({ g with usages := ModelUsageService.markExpiredRunningUnknown g.usages current }, .done)
  | .lifecycle op => ({ g with sys := step limits g.sys { op := op } }, .done)
  | .done => (g, .done)

/-- Any number of attempts, with all that goes on around them. -/
def program (limits : AdmissionLimits) : Program Gateway Running GatewayOp where
  wait g t := { g with sys := { g.sys with clock := g.sys.clock + t } }
  call _
    | .callRoute c => some (.attempt (enter c))
    | .markExpired current => some (.markExpired current)
    | .lifecycle op => some (.lifecycle op)
  exec := execRunning limits

end Gateway

/-- A pass of the reconciler that commits: the expired rows, and the rest of
`run_once`. -/
def ReconciliationService.runOnceWithUsage (g : Gateway) (current now : Time)
    (resolver : Option (AgentRun → Option Int)) : Result Gateway := do
  let usages := ModelUsageService.markExpiredRunningUnknown g.usages current
  let db ← ReconciliationService.runOnce g.sys.db current now resolver
  pure { g with sys := { g.sys with db := db }, usages := usages }

end AgentRuntime
