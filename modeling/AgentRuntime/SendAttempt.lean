import AgentRuntime.ModelGateway

/-!
# Sending an activated attempt

`_send_activated_attempt` asks the policy, the lease and the traffic
controller before it calls the provider and once more when the answer is
there, and each of them may answer or raise. A `SendWorld` holds what they
do, in the order of the source; `SendWorld.beforeStart` and
`SendWorld.reply` are what the attempt's `Fate` sums up of it.

The outcome is `aborted_before_send` until one of the `except` clauses or
the `else` branch assigns another. Nothing catches what `_can_send` raises
in the `else` branch, nor what is no `Exception` when `provider.call` raises
it, so in both cases the `finally` settles the outcome the attempt began
with.
-/

namespace AgentRuntime

/-- `if not first or not second: return`. -/
def Reply.andThen (first second : Reply) : Reply :=
  match first with
  | .yes => second
  | .no => .no
  | .raises => .raises

/-- What one round of `_can_send` finds. -/
structure SendCheck where
  permitsNewCall : Reply := .yes
  contextIsAuthoritative : Reply := .yes
  deadlineExpired : Bool := false
  leaseExpired : Bool := false
  canWrite : Reply := .yes
  deriving DecidableEq, Repr

/-- `_can_send`. -/
def SendCheck.canSend (c : SendCheck) : Reply :=
  c.permitsNewCall.andThen (c.contextIsAuthoritative.andThen
    (if c.deadlineExpired ∨ c.leaseExpired then .no else c.canWrite))

/-- What `provider.call` does. `error` is any other exception of the class
`Exception`, `interrupt` one that is none of it. -/
inductive ProviderAnswer
  | payload (body : Json)
  | httpStatus (code : Nat) (retryAfter : Time)
  | network
  | error
  | interrupt

/-- How `usage.mark_started` ends. -/
inductive MarkStarted
  | answers | raisesBefore | raisesAfter
  deriving DecidableEq, Repr

/-- What the collaborators do while an activated attempt is sent. -/
structure SendWorld where
  first : SendCheck := {}
  second : SendCheck := {}
  permitStarted : Reply := .yes
  usageStarted : MarkStarted := .answers
  third : SendCheck := {}
  effectiveTimeout : Option Time := some (seconds 30)
  provider : ProviderAnswer := .network
  delivered : SendCheck := {}

namespace ModelGateway

/-- `_provider_request_id`. -/
def providerRequestId : Json → Option String
  | .obj fields =>
    match (Json.get? "provider_request_id" fields).getD
        ((Json.get? "request_id" fields).getD .null) with
    | .str value => if value = "" ∨ 120 < value.length then none else some value
    | _ => none
  | _ => none

/-- `_provider_usage`. -/
def providerUsage : Json → Option Int × Option Int
  | .obj fields =>
    match Json.get? "usage" fields with
    | some (.obj usage) =>
      match (Json.get? "input_tokens" usage).getD ((Json.get? "prompt_tokens" usage).getD .null),
          (Json.get? "output_tokens" usage).getD
            ((Json.get? "completion_tokens" usage).getD .null) with
      | .int inputTokens, .int outputTokens =>
        if inputTokens < 0 ∨ outputTokens < 0 then (none, none)
        else (some inputTokens, some outputTokens)
      | _, _ => (none, none)
    | _ => (none, none)
  | _ => (none, none)

/-- A request id is one that `settle` takes. -/
theorem providerRequestId_valid {body : Json} {requestId : String}
    (h : providerRequestId body = some requestId) :
    requestId ≠ "" ∧ requestId.length ≤ 120 := by
  cases body with
  | obj fields =>
    unfold providerRequestId at h
    dsimp only at h
    split at h
    · split at h
      · cases h
      next hvalid =>
        cases h
        push Not at hvalid
        exact hvalid
    · cases h
  | _ => cases h

end ModelGateway

namespace SendWorld

/-- The statements up to `usage.mark_started`, which commits. -/
def beforeStart (w : SendWorld) : Reply :=
  w.first.canSend.andThen (w.second.canSend.andThen (w.permitStarted.andThen
    (if w.usageStarted = .raisesBefore then .raises else .yes)))

/-- The attempt goes on to `provider.call`, once it is marked as started. -/
def Invokes (w : SendWorld) : Prop :=
  w.usageStarted ≠ .raisesAfter ∧ w.third.canSend = .yes ∧ w.effectiveTimeout ≠ none

instance (w : SendWorld) : Decidable w.Invokes := by
  unfold Invokes; infer_instance

/-- `provider.call`, with the clauses around it. -/
def answered (w : SendWorld) : ProviderReply :=
  match w.provider with
  | .httpStatus code _ => if code = 429 then .rateLimited else .unknown
  | .network => .unknown
  | .error => .unknown
  | .interrupt => .interrupted
  | .payload body =>
    match w.delivered.canSend with
    | .no => .discarded (ModelGateway.providerRequestId body)
    | .yes =>
      .succeeded (ModelGateway.providerRequestId body) (ModelGateway.providerUsage body).1
        (ModelGateway.providerUsage body).2
    | .raises => .interrupted (ModelGateway.providerRequestId body)

/-- The statements after `usage.mark_started`. -/
def reply (w : SendWorld) : ProviderReply :=
  if w.usageStarted = .raisesAfter then .interrupted
  else
    match w.third.canSend with
    | .raises => .interrupted
    | .no => .notSent
    | .yes => if w.effectiveTimeout = none then .notSent else w.answered

/-- `retry_after`. -/
def retryAfter (w : SendWorld) : Time :=
  match w.provider with
  | .httpStatus _ retryAfter => retryAfter
  | _ => 0

/-- The fate of an attempt that is sent in the world `w`. -/
def fate (w : SendWorld) (f : Fate) : Fate :=
  { f with sendable := w.beforeStart, provider := w.reply }

/-- The request has left, and what became of it is raised past every clause:
the provider call is interrupted, or the check after it raises. -/
def LosesReply (w : SendWorld) : Prop :=
  match w.provider with
  | .interrupt => True
  | .payload _ => w.delivered.canSend = .raises
  | _ => False

instance (w : SendWorld) : Decidable w.LosesReply := by
  unfold LosesReply; split <;> infer_instance

theorem reply_of_invokes {w : SendWorld} (h : w.Invokes) : w.reply = w.answered := by
  obtain ⟨hstarted, hthird, htimeout⟩ := h
  unfold reply
  rw [if_neg hstarted, hthird]
  exact if_neg htimeout

end SendWorld

namespace ProviderReply

/-- Settled as a request that was not sent. -/
def BooksUnsent (reply : ProviderReply) : Prop :=
  ∀ route, (Gateway.settlementOf route reply).outcome = .abortedBeforeSend

/-- A reply is settled as not sent, or as sent, whatever the route. -/
theorem booksUnsent_iff (reply : ProviderReply) (route : ModelRoute) :
    reply.BooksUnsent ↔ (Gateway.settlementOf route reply).outcome = .abortedBeforeSend := by
  refine ⟨fun h => h route, fun h route' => ?_⟩
  cases reply <;> first | rfl | cases h

end ProviderReply

/-- A request that has left is settled as not sent exactly where its reply is
lost. -/
theorem SendWorld.booksUnsent_iff {w : SendWorld} (h : w.Invokes) :
    w.reply.BooksUnsent ↔ w.LosesReply := by
  rw [reply_of_invokes h, ProviderReply.booksUnsent_iff _ { routeId := "primary" }]
  unfold answered LosesReply
  cases w.provider with
  | httpStatus code retryAfter =>
    dsimp only
    split <;> simp [Gateway.settlementOf]
  | network => simp [Gateway.settlementOf]
  | error => simp [Gateway.settlementOf]
  | interrupt => simp [Gateway.settlementOf]
  | payload body => cases h : w.delivered.canSend <;> simp [Gateway.settlementOf]

/-- What is asked of `settle` for a reply of the provider passes its
checks. -/
theorem SendWorld.requestId_valid (w : SendWorld) (route : ModelRoute) :
    ∀ p ∈ (Gateway.settlementOf route w.reply).providerRequestId, p ≠ "" ∧ p.length ≤ 120 := by
  have hanswered : ∀ p ∈ (Gateway.settlementOf route w.answered).providerRequestId,
      p ≠ "" ∧ p.length ≤ 120 := by
    unfold answered
    cases w.provider with
    | httpStatus code retryAfter =>
      dsimp only
      split <;> simp [Gateway.settlementOf]
    | network => simp [Gateway.settlementOf]
    | error => simp [Gateway.settlementOf]
    | interrupt => simp [Gateway.settlementOf]
    | payload body =>
      dsimp only
      cases w.delivered.canSend <;>
        exact fun p hp => ModelGateway.providerRequestId_valid hp
  unfold reply
  split
  · simp [Gateway.settlementOf]
  · split
    · simp [Gateway.settlementOf]
    · simp [Gateway.settlementOf]
    · split
      · simp [Gateway.settlementOf]
      · exact hanswered

end AgentRuntime
