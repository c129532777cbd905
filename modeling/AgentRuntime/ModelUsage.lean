import AgentRuntime.System
import Mathlib.Algebra.Order.Ring.Rat

/-!
# The ledger of model calls

One row of `agent_model_usages` is one physical request to a provider: it is
reserved when the budget admits it, running once the traffic permit is
granted, started when the right to send is established, and settled by what
became of it. `ModelUsageService` moves a row along by conditional updates,
each of which says whether it matched.

`settle` is two statements. It reads the row, decides by the status it read,
and its update then matches any of the statuses it allows: `settleRead` is
the first, `settleWrite` the second. A late report, `succeeded` or `failed`,
may also match a row whose outcome is unknown; that the provider's request
id must then be the stored one is asked only where the read saw that status.
-/

namespace AgentRuntime

open Keyed

/-- `agent_model_usages.status`. -/
inductive UsageStatus
  | reserved | running | started
  | succeeded | failed | rateLimited | abortedBeforeSend | outcomeUnknown
  deriving DecidableEq, Repr

/-- The statuses nothing moves a row out of. -/
def UsageStatus.isFinal : UsageStatus → Bool
  | succeeded | failed | rateLimited | abortedBeforeSend => true
  | _ => false

/-- `running` or `started`: a request may be on its way. -/
def UsageStatus.inFlight : UsageStatus → Bool
  | running | started => true
  | _ => false

/-- The status a settlement writes. -/
inductive Outcome
  | succeeded | failed | rateLimited | abortedBeforeSend | outcomeUnknown
  deriving DecidableEq, Repr

def Outcome.status : Outcome → UsageStatus
  | succeeded => .succeeded
  | failed => .failed
  | rateLimited => .rateLimited
  | abortedBeforeSend => .abortedBeforeSend
  | outcomeUnknown => .outcomeUnknown

/-- `late_recovery`: the outcomes that may also settle an unknown one. -/
def Outcome.isLate : Outcome → Bool
  | succeeded | failed => true
  | _ => false

/-- A deployed model route: its prices for a thousand tokens, its shared
traffic limits, and where a rate-limited call goes next. -/
structure ModelRoute where
  routeId : String
  rateLimitKey : String := routeId
  maxConcurrency : Nat := 8
  rpmLimit : Nat := 60
  tpmLimit : Nat := 100000
  permitTtl : Time := seconds 60
  circuitFailureThreshold : Nat := 0
  circuitOpen : Time := 0
  inputPrice : Rat := 0
  outputPrice : Rat := 0
  fallbackRouteId : Option String := none
  permitTtl_pos : 0 < permitTtl := by decide
  inputPrice_nonneg : 0 ≤ inputPrice := by decide
  outputPrice_nonneg : 0 ≤ outputPrice := by decide
  fallback_ne : fallbackRouteId ≠ some routeId := by decide

/-- One physical attempt. `usageId` numbers the rows in the order in which
their identifiers are drawn; the images of the media channel carry an
`imageCount`, the calls of a model do not. -/
structure AgentModelUsage where
  usageId : Nat
  runId : String
  stepId : String
  executionAttempt : Nat
  modelAttempt : Nat
  status : UsageStatus
  permitId : Option String := none
  providerRequestId : Option String := none
  promptRef : Option (String × String) := none
  reservedEstimatedCost : Option Rat := none
  reservedTokens : Option Int := none
  estimatedCost : Option Rat := none
  inputTokens : Option Int := none
  outputTokens : Option Int := none
  imageCount : Option Nat := none
  requestDeadlineAt : Option Time := none
  deriving DecidableEq, Repr

abbrev UsageTable := Table AgentModelUsage.usageId

/-- What `settle` is asked to record. -/
structure Settlement where
  outcome : Outcome
  inputTokens : Option Int := none
  outputTokens : Option Int := none
  route : Option ModelRoute := none
  providerRequestId : Option String := none

namespace AgentModelUsage

def activate (usage : AgentModelUsage) (permitId : String) : AgentModelUsage :=
  { usage with status := .running, permitId := some permitId }

def start (usage : AgentModelUsage) : AgentModelUsage :=
  { usage with status := .started }

def attachPrompt (usage : AgentModelUsage) (promptId promptVersion : String) : AgentModelUsage :=
  { usage with promptRef := some (promptId, promptVersion) }

/-- The values of the settling update; an identity the provider did not
report leaves the stored one. -/
def settle (usage : AgentModelUsage) (s : Settlement) (cost : Option Rat) : AgentModelUsage :=
  { usage with
    status := s.outcome.status
    inputTokens := s.inputTokens
    outputTokens := s.outputTokens
    estimatedCost := cost
    providerRequestId := s.providerRequestId.or usage.providerRequestId }

/-- The deadline of the request is past. -/
def PastDeadline (usage : AgentModelUsage) (current : Time) : Prop :=
  ∃ t, usage.requestDeadlineAt = some t ∧ t < current

instance (usage : AgentModelUsage) (current : Time) : Decidable (usage.PastDeadline current) :=
  match h : usage.requestDeadlineAt with
  | none => isFalse fun ⟨t, ht, _⟩ => by simp [h] at ht
  | some t => decidable_of_iff (t < current) (by simp [PastDeadline, h])

/-- In flight past its deadline. -/
def Expired (usage : AgentModelUsage) (current : Time) : Prop :=
  usage.status.inFlight = true ∧ usage.PastDeadline current

instance (usage : AgentModelUsage) (current : Time) : Decidable (usage.Expired current) := by
  unfold Expired; infer_instance

/-- The outcome of an expired call is unknown, at its reserved cost. -/
def expire (usage : AgentModelUsage) (current : Time) : AgentModelUsage :=
  if usage.Expired current then
    { usage with status := .outcomeUnknown, estimatedCost := usage.reservedEstimatedCost }
  else usage

theorem usageId_expire (usage : AgentModelUsage) (current : Time) :
    (usage.expire current).usageId = usage.usageId := by
  unfold expire
  split <;> rfl

end AgentModelUsage

namespace ModelUsageService

/-- `activate_reservation`. -/
def activateReservation (usages : UsageTable) (usageId : Nat) (permitId : String) :
    UsageTable × Bool :=
  usages.updateWhere usageId (fun u => u.status = .reserved) (fun u => u.activate permitId)

/-- `mark_started`. -/
def markStarted (usages : UsageTable) (usageId : Nat) : UsageTable × Bool :=
  usages.updateWhere usageId (fun u => u.status = .running) AgentModelUsage.start

/-- `attach_prompt_ref`. -/
def attachPromptRef (usages : UsageTable) (usageId : Nat) (promptId promptVersion : String) :
    Result (UsageTable × Bool) := do
  require (promptId ≠ "" ∧ promptVersion ≠ "") (.value "prompt_id 与 prompt_version 不能为空")
  pure (usages.updateWhere usageId (fun u => u.status = .reserved)
    (fun u => u.attachPrompt promptId promptVersion))

/-- `cancel_reservation`. -/
def cancelReservation (usages : UsageTable) (usageId : Nat) : UsageTable × Bool :=
  usages.deleteWhere usageId (fun u => u.status = .reserved)

/-- `mark_expired_running_unknown`. -/
def markExpiredRunningUnknown (usages : UsageTable) (current : Time) : UsageTable :=
  usages.mapRows (fun u => u.expire current) (fun u => u.usageId_expire current)

/-- A settlement that has read its row: the cost it will write, and the
status it saw. -/
structure PendingSettle where
  usageId : Nat
  settlement : Settlement
  cost : Option Rat
  seen : UsageStatus

/-- The tokens of a call, priced by its route. -/
def priced (route : ModelRoute) (inputTokens outputTokens : Int) : Rat :=
  (inputTokens * route.inputPrice + outputTokens * route.outputPrice) / 1000

/-- `_get`. -/
def get (usages : UsageTable) (usageId : Nat) : Result AgentModelUsage :=
  match usages.find? usageId with
  | none => .error (.value "MODEL_USAGE_NOT_FOUND")
  | some usage => pure usage

/-- The cost `settle` writes: nothing was spent on a call that was not sent,
a counted one is priced, and what is not known costs what was reserved. -/
def settleCost (usages : UsageTable) (usageId : Nat) (s : Settlement) : Result (Option Rat) :=
  match s.outcome, s.inputTokens, s.outputTokens with
  | .abortedBeforeSend, _, _ => pure (some 0)
  | .succeeded, some i, some o =>
    match s.route with
    | none => .error (.value "成功结算必须提供冻结的 route")
    | some route => pure (some (priced route i o))
  | _, _, _ => do
    let usage ← get usages usageId
    pure usage.reservedEstimatedCost

/-- `settle` up to its update; `none` is the answer `identity_mismatch`. -/
def settleRead (usages : UsageTable) (usageId : Nat) (s : Settlement) :
    Result (Option PendingSettle) := do
  require (∀ n ∈ s.inputTokens, 0 ≤ n) (.value "input_tokens 不可为负")
  require (∀ n ∈ s.outputTokens, 0 ≤ n) (.value "output_tokens 不可为负")
  require (∀ p ∈ s.providerRequestId, p ≠ "" ∧ p.length ≤ 120) (.value "provider_request_id 非法")
  let cost ← settleCost usages usageId s
  let usage ← get usages usageId
  if s.outcome.isLate = true ∧ usage.status = .outcomeUnknown ∧
      (s.providerRequestId = none ∨ usage.providerRequestId ≠ s.providerRequestId) then
    pure none
  else
    pure (some { usageId := usageId, settlement := s, cost := cost, seen := usage.status })

theorem settleRead_ok {usages : UsageTable} {usageId : Nat} {s : Settlement} {p : PendingSettle}
    (h : settleRead usages usageId s = .ok (some p)) : p.usageId = usageId := by
  obtain ⟨_, _, h⟩ := bind_ok.mp h
  obtain ⟨_, _, h⟩ := bind_ok.mp h
  obtain ⟨_, _, h⟩ := bind_ok.mp h
  obtain ⟨_, _, h⟩ := bind_ok.mp h
  obtain ⟨_, _, h⟩ := bind_ok.mp h
  split at h
  · cases h
  · cases h
    rfl

/-- The statuses the update of `settle` matches. -/
def allowedStatuses (outcome : Outcome) : List UsageStatus :=
  if outcome.isLate then [.running, .started, .outcomeUnknown] else [.running, .started]

/-- The `where` clause of `settle`. -/
def Matches (p : PendingSettle) (usage : AgentModelUsage) : Prop :=
  usage.status ∈ allowedStatuses p.settlement.outcome ∧
    (p.settlement.outcome.isLate = true ∧ p.seen = .outcomeUnknown →
      usage.providerRequestId = p.settlement.providerRequestId)

instance (p : PendingSettle) (usage : AgentModelUsage) : Decidable (Matches p usage) := by
  unfold Matches; infer_instance

/-- The update of `settle`: `true` is the answer `settled`, `false` is
`already_settled`. -/
def settleWrite (usages : UsageTable) (p : PendingSettle) : UsageTable × Bool :=
  usages.updateWhere p.usageId (Matches p) (fun u => u.settle p.settlement p.cost)

end ModelUsageService

end AgentRuntime
