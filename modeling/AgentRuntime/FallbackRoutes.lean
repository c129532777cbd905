import AgentRuntime.SendAttempt
import AgentRuntime.GatewayCall
import AgentRuntime.MemoirRequest
import AgentRuntime.Lib.Fallback

/-!
# Calls along the fallback routes

`ModelGateway.call` with all that decides about a route: the governance
chain of `_call_route`, asked again for every fallback, the checks that come
before the budget, and the send itself. The candidate loop is a walk along
fallbacks (`Fallback.walk`), over any graph of fallback routes: that a route
does not name itself, and names a registered one, is checked where routes
are built (`ModelRoute.fallback_ne`) and not relied on here.

A `Made` is one attempt, with the state it found; `Made.providerCalls`
counts the statements of it that call the provider. `callFrom_eq_walk` says
that the loop over attempts whose fate is given is the same walk.
-/

namespace AgentRuntime

open Keyed Fallback

/-- Where the data of a route or a tenant must stay. -/
inductive DataResidency
  | «public» | «private»
  deriving DecidableEq, Repr

/-- The fields of a deployed route that only the governance chain reads. -/
structure RouteGovernance where
  enabled : Bool := true
  dataResidency : DataResidency := .public
  allowedTenantIds : List String := []
  allowedModelPolicies : List String := []

/-- What `_route_governance_error` answers. -/
inductive GovernanceError
  | emergencyDisabled | tenantDenied | policyDenied | notDeployed
  deriving DecidableEq, Repr

def GovernanceError.code : GovernanceError → String
  | emergencyDisabled => "MODEL_ROUTE_EMERGENCY_DISABLED"
  | tenantDenied => "MODEL_ROUTE_TENANT_DENIED"
  | policyDenied => "MODEL_ROUTE_POLICY_DENIED"
  | notDeployed => "MODEL_ROUTE_NOT_DEPLOYED"

/-- The answer of the circuit before the budget is asked. -/
inductive Preflight
  | available | unavailable | circuitOpen
  deriving DecidableEq, Repr

/-- What the world holds for an attempt: what the checks before the budget
find, and how it is sent. -/
structure RouteWorld where
  attempt : AttemptFate := {}
  supportsPrompt : Bool := true
  endpointIsPublic : Bool := true
  deadlineExpired : Bool := false
  circuit : Preflight := .available
  permitsNewCall : Bool := true
  send : SendWorld := {}

/-- A call of `ModelGateway.call`. -/
structure RoutedCall where
  ctx : ModelCallContext
  tenantId : String := ""
  requiredDataResidency : Option DataResidency := none
  routeId : String
  prompt : Option PromptDefinition := none
  world : Nat → RouteWorld := fun _ => {}

/-- The governance of the deployed routes. -/
abbrev Governance := String → RouteGovernance

/-- A graph of fallback routes. -/
abbrev FallbackGraph := String → Option String

/-- The graph the registry holds. -/
def RouteTable.graph (routes : RouteTable) : FallbackGraph :=
  fun routeId => (routes.find? routeId).bind ModelRoute.fallbackRouteId

namespace ModelGateway

/-- `_route_governance_error`. -/
def routeGovernanceError (governance : Governance) (call : RoutedCall) (route : ModelRoute) :
    Option GovernanceError :=
  let g := governance route.routeId
  if g.enabled = false then some .emergencyDisabled
  else if (g.allowedTenantIds ≠ [] ∧ "*" ∉ g.allowedTenantIds ∧
        call.tenantId ∉ g.allowedTenantIds) ∨
      (call.requiredDataResidency ≠ none ∧
        some g.dataResidency ≠ call.requiredDataResidency) then some .tenantDenied
  else if g.allowedModelPolicies ≠ [] ∧
      ∀ prompt ∈ call.prompt, prompt.modelPolicy ∉ g.allowedModelPolicies then some .policyDenied
  else if route.routeId ∉ call.ctx.allowedRouteIds then some .notDeployed
  else none

/-- `_call_route` up to the budget. -/
def refusal (governance : Governance) (call : RoutedCall) (w : RouteWorld) (route : ModelRoute) :
    Option GatewayStatus :=
  match routeGovernanceError governance call route with
  | some .notDeployed => some .routeNotAllowed
  | some _ => some .governanceDenied
  | none =>
    if call.prompt.isSome = true ∧ w.supportsPrompt = false then some .capabilityDisabled
    else if w.endpointIsPublic = false then some .endpointRejected
    else if w.deadlineExpired then some .abortedBeforeSend
    else if w.circuit = .unavailable then some .capabilityDisabled
    else if w.circuit = .circuitOpen then some .circuitOpen
    else if w.permitsNewCall = false then some .abortedBeforeSend
    else none

/-- A route outside the snapshot of the run is refused. -/
theorem refusal_of_not_allowed {governance : Governance} {call : RoutedCall} {w : RouteWorld}
    {route : ModelRoute} (h : route.routeId ∉ call.ctx.allowedRouteIds) :
    refusal governance call w route ≠ none := by
  have herror : routeGovernanceError governance call route ≠ none := by
    unfold routeGovernanceError
    dsimp only
    split
    · simp
    · split
      · simp
      · split
        · simp
        · simp
  unfold refusal
  split
  · simp
  · simp
  next hnone => exact absurd hnone herror

end ModelGateway

namespace RoutedCall

/-- The `n`-th attempt of the call, on `route`. -/
def fateOn (governance : Governance) (call : RoutedCall) (route : ModelRoute) (w : RouteWorld) :
    AttemptFate :=
  { w.attempt with
    fate := { w.send.fate w.attempt.fate with
      refusal := ModelGateway.refusal governance call w route }
    retryAfter := w.send.retryAfter }

/-- The call as it would go on `route`. -/
def on (governance : Governance) (call : RoutedCall) (route : ModelRoute) : LogicalCall where
  ctx := call.ctx
  routeId := call.routeId
  prompt := call.prompt.map fun p => (p.promptId, p.version)
  world n := call.fateOn governance route (call.world n)

end RoutedCall

/-- One attempt that was made. -/
structure Made where
  found : Gateway
  call : Gateway.CallRoute
  world : RouteWorld

/-- The trial of a candidate, whose first attempt has the number `number`. -/
structure Trial where
  called : Called
  number : Nat

/-- The attempts of a trial, each with its world. -/
def Trial.made (t : Trial) (call : RoutedCall) : List Made :=
  t.called.made.mapIdx fun n m => ⟨m.1, m.2, call.world (t.number + n)⟩

/-- What `call` answers: a result, the `ValueError` of the registry, or what
an attempt raised. -/
inductive Answer
  | result (status : GatewayStatus)
  | routeUnavailable (routeId : String)
  | raised

structure RoutedAnswer where
  gateway : Gateway
  answer : Answer
  made : List Made

namespace ModelGateway

/-- The candidates of a call. -/
def candidates (routes : RouteTable) (graph : FallbackGraph) (allowedRouteIds : List String) :
    Candidates String ModelRoute where
  key route := route.routeId
  find routeId := routes.find? routeId
  next route := (graph route.routeId).filter (fun fallbackId => decide (fallbackId ≠ ""))
  allowed := allowedRouteIds
  key_of_find _ _ h := Table.key_of_find? h

/-- A rate-limited candidate passes the call on. -/
def passesOn (t : Trial) : Bool :=
  decide (t.called.status = some .rateLimited)

/-- A candidate is tried. -/
def tryCandidate (limits : AdmissionLimits) (callOn : ModelRoute → LogicalCall)
    (s : Gateway × Nat) (route : ModelRoute) : (Gateway × Nat) × Trial :=
  let tried := Gateway.tryRoute limits (callOn route) s.1 s.2 route
  ((tried.gateway, s.2 + tried.made.length), ⟨tried, s.2⟩)

def answerOf : Ending String Trial → Answer
  | .answered t =>
    match t.called.status with
    | some status => .result status
    | none => .raised
  | .unknown routeId => .routeUnavailable routeId

/-- `ModelGateway.call`, along any graph of fallback routes. -/
def callAlong (limits : AdmissionLimits) (routes : RouteTable) (graph : FallbackGraph)
    (governance : Governance) (g : Gateway) (call : RoutedCall) : RoutedAnswer :=
  let walked := walk (candidates routes graph call.ctx.allowedRouteIds)
    (tryCandidate limits (call.on governance)) passesOn (g, 0) call.routeId
  { gateway := walked.state.1
    answer := answerOf walked.ending
    made := walked.tried.flatMap fun t => t.2.made call }

end ModelGateway

/-! ## The loop over attempts whose fate is given -/

namespace Gateway

/-- What a walk says of a call. -/
def calledOf (walked : Walked String ModelRoute (Gateway × Nat) Trial) : Called where
  gateway := walked.state.1
  status :=
    match walked.ending with
    | .answered t => t.called.status
    | .unknown _ => none
  made := walked.tried.flatMap fun t => t.2.called.made

/-- The registry names the fallback of a registered route, where there is
one. -/
theorem next_of_find {routes : RouteTable} {route : ModelRoute} (allowed : List String)
    (h : routes.find? route.routeId = some route) :
    (ModelGateway.candidates routes routes.graph allowed).next route
      = route.fallbackRouteId.filter (fun fallbackId => decide (fallbackId ≠ "")) := by
  show ((routes.find? route.routeId).bind ModelRoute.fallbackRouteId).filter _ = _
  rw [h]
  rfl

/-- The candidate loop is a walk along the graph of the registry. -/
theorem callFrom_eq_walk (limits : AdmissionLimits) (routes : RouteTable) (call : LogicalCall)
    (g : Gateway) (n : Nat) (attempted : List String) (route : ModelRoute)
    (hroute : routes.find? route.routeId = some route) :
    callFrom limits routes call g n attempted route
      = calledOf (walkFrom (ModelGateway.candidates routes routes.graph call.ctx.allowedRouteIds)
          (ModelGateway.tryCandidate limits fun _ => call) ModelGateway.passesOn (g, n) attempted
          route) := by
  fun_induction callFrom limits routes call g n attempted route with
  | case1 g n attempted route tried hnone =>
    have hnext := next_of_find call.ctx.allowedRouteIds hroute
    rw [hnone] at hnext
    rw [walkFrom.eq_def, hnext]
    simp [calledOf, ModelGateway.tryCandidate, tried]
  | case2 g n attempted route tried fallbackId hfallback hpass hfind =>
    obtain ⟨hstatus, hname, hnew, hallowed⟩ := hpass
    have hnext := next_of_find call.ctx.allowedRouteIds hroute
    rw [hfallback, Option.filter_some_pos (by simpa using hname)] at hnext
    have hgo : ModelGateway.passesOn
        (ModelGateway.tryCandidate limits (fun _ => call) (g, n) route).2 = true :=
      decide_eq_true hstatus
    rw [walkFrom.eq_def, hnext]
    dsimp only
    rw [dif_pos ⟨hgo, hnew, hallowed⟩,
      show (ModelGateway.candidates routes routes.graph call.ctx.allowedRouteIds).find fallbackId
        = none from hfind]
    simp [calledOf, ModelGateway.tryCandidate, tried]
  | case3 g n attempted route tried fallbackId hfallback hpass fallback hfind rest ih =>
    obtain ⟨hstatus, hname, hnew, hallowed⟩ := hpass
    have hnext := next_of_find call.ctx.allowedRouteIds hroute
    rw [hfallback, Option.filter_some_pos (by simpa using hname)] at hnext
    have hgo : ModelGateway.passesOn
        (ModelGateway.tryCandidate limits (fun _ => call) (g, n) route).2 = true :=
      decide_eq_true hstatus
    have hkey : fallback.routeId = fallbackId := Table.key_of_find? hfind
    have hrest : rest = _ := ih (by rw [hkey]; exact hfind)
    rw [walkFrom.eq_def, hnext]
    dsimp only
    rw [dif_pos ⟨hgo, hnew, hallowed⟩,
      show (ModelGateway.candidates routes routes.graph call.ctx.allowedRouteIds).find fallbackId
        = some fallback from hfind, hrest]
    rfl
  | case4 g n attempted route tried fallbackId hfallback hpass =>
    have hnext := next_of_find call.ctx.allowedRouteIds hroute
    rw [walkFrom.eq_def, hnext, hfallback]
    by_cases hname : fallbackId = ""
    · rw [Option.filter_some_neg (by simpa using hname)]
      simp [calledOf, ModelGateway.tryCandidate, tried]
    · rw [Option.filter_some_pos (by simpa using hname)]
      dsimp only
      rw [dif_neg ?_]
      · simp [calledOf, ModelGateway.tryCandidate, tried]
      · rintro ⟨hgo, hnew, hallowed⟩
        exact hpass ⟨of_decide_eq_true hgo, hname, hnew, hallowed⟩

end Gateway

/-! ## One attempt -/

/-- How many statements an attempt runs from where it is to its end. -/
def Phase.toEnd : Phase → Nat
  | .entered => 8
  | .reserved _ => 7
  | .attached _ => 6
  | .granted _ => 5
  | .activated _ => 4
  | .started _ => 3
  | .settling _ _ _ => 2
  | .returned _ _ _ => 1
  | .closed _ => 0

/-- The next statement is `provider.call`. -/
def Phase.isStarted : Phase → Bool
  | .started _ => true
  | _ => false

namespace Gateway

/-- Every statement brings an attempt nearer to its end. -/
theorem toEnd_advance (g : Gateway) (a : Attempt) :
    (g.advance a).2.phase.toEnd ≤ a.phase.toEnd - 1 := by
  unfold advance
  cases hphase : a.phase with
  | entered =>
    dsimp only
    split
    · exact Nat.zero_le _
    · split
      · exact Nat.zero_le _
      · exact Nat.le_refl _
  | reserved u =>
    dsimp only [attach]
    split
    · exact Nat.le_refl _
    · split
      · exact Nat.zero_le _
      · split
        · exact Nat.zero_le _
        · split
          · exact Nat.le_refl _
          · exact Nat.zero_le _
  | attached u =>
    dsimp only [acquire]
    split
    · exact Nat.le_refl _
    · exact Nat.zero_le _
    · exact Nat.zero_le _
  | granted u =>
    dsimp only [activate]
    split
    · exact Nat.zero_le _
    · split
      · exact Nat.le_refl _
      · exact Nat.zero_le _
  | activated u =>
    dsimp only [start]
    split
    · split
      · exact Nat.le_refl _
      · exact (by decide : 2 ≤ 3)
    · exact (by decide : 2 ≤ 3)
    · exact (by decide : 2 ≤ 3)
  | started u => exact Nat.le_refl _
  | settling u sent reply =>
    dsimp only [settle]
    split <;> exact Nat.le_refl _
  | returned u sent status =>
    dsimp only
    split <;> exact Nat.zero_le _
  | closed status =>
    dsimp only
    rw [hphase]
    exact Nat.zero_le _

/-- How many of the next `n` statements of an attempt call the provider. -/
def providerCalls (g : Gateway) (a : Attempt) : Nat → Nat
  | 0 => 0
  | n + 1 => (if a.phase.isStarted then 1 else 0) + providerCalls (g.advance a).1 (g.advance a).2 n

theorem toEnd_of_isStarted {phase : Phase} (h : phase.isStarted = true) : phase.toEnd = 3 := by
  cases phase with
  | started u => rfl
  | _ => cases h

/-- An attempt that is past the call does not come back to it. -/
theorem providerCalls_past : ∀ (n : Nat) (g : Gateway) (a : Attempt), a.phase.toEnd < 3 →
    providerCalls g a n = 0
  | 0, _, _, _ => rfl
  | n + 1, g, a, h => by
    have hnot : ¬ a.phase.isStarted = true := fun hs => by
      rw [toEnd_of_isStarted hs] at h
      exact absurd h (Nat.lt_irrefl _)
    have hnext := toEnd_advance g a
    unfold providerCalls
    rw [if_neg hnot, providerCalls_past n _ _ (by omega)]

/-- An attempt calls the provider once at most. -/
theorem providerCalls_le : ∀ (n : Nat) (g : Gateway) (a : Attempt), providerCalls g a n ≤ 1
  | 0, _, _ => Nat.zero_le _
  | n + 1, g, a => by
    unfold providerCalls
    by_cases hs : a.phase.isStarted = true
    · have hnext := toEnd_advance g a
      rw [toEnd_of_isStarted hs] at hnext
      rw [if_pos hs, providerCalls_past n _ _ (by omega)]
    · rw [if_neg hs, Nat.zero_add]
      exact providerCalls_le n _ _

/-- A refused attempt does not get there. -/
theorem providerCalls_refused {g : Gateway} {c : CallRoute} (h : c.fate.refusal ≠ none) (n : Nat) :
    providerCalls g (enter c) n = 0 := by
  obtain ⟨status, hstatus⟩ := Option.ne_none_iff_exists'.mp h
  cases n with
  | zero => rfl
  | succ n =>
    have hadvance : g.advance (enter c)
        = (g, { enter c with phase := .closed (some status) }) := by
      simp [advance, enter, hstatus]
    unfold providerCalls
    rw [hadvance, providerCalls_past n g { enter c with phase := .closed (some status) }
      (Nat.succ_pos _)]
    rfl

/-- Somebody the attempt depends on raises. -/
def RaisesIn (prompt : Option (String × String)) (fate : Fate) : Prop :=
  (∃ ref ∈ prompt, fate.attached = .raises ∨ ref.1 = "" ∨ ref.2 = "") ∨ fate.acquired = .raises ∨
    fate.activates = .raises ∨ fate.sendable = .raises ∨
    ∃ requestId, fate.provider = .interrupted requestId

/-- Where nobody raises, an attempt has not raised so far. -/
def Answering (a : Attempt) : Prop :=
  ¬ RaisesIn a.prompt a.fate ∧
    match a.phase with
    | .settling _ _ reply => ∀ requestId, reply ≠ .interrupted requestId
    | .returned _ _ status => status ≠ none
    | .closed status => status ≠ none
    | _ => True

theorem statusOf_ne_none {settled : Bool} {reply : ProviderReply}
    (h : ∀ requestId, reply ≠ .interrupted requestId) : statusOf settled reply ≠ none := by
  cases reply with
  | interrupted requestId => exact absurd rfl (h requestId)
  | _ => simp [statusOf]

theorem answering_advance {g : Gateway} {a : Attempt} (h : Answering a) :
    Answering (g.advance a).2 := by
  obtain ⟨hquiet, hphase⟩ := h
  have hparts := hquiet
  unfold RaisesIn at hparts
  push Not at hparts
  obtain ⟨hattached, hacquired, hactivates, hsendable, hprovider⟩ := hparts
  unfold advance
  cases heq : a.phase with
  | entered =>
    dsimp only
    split
    · exact ⟨hquiet, by simp⟩
    · split
      · exact ⟨hquiet, by simp⟩
      · exact ⟨hquiet, trivial⟩
  | reserved u =>
    dsimp only [attach]
    split
    · exact ⟨hquiet, trivial⟩
    next promptId promptVersion hprompt =>
      obtain ⟨hno, hid, hversion⟩ := hattached _ hprompt
      rw [if_neg hno]
      split
      next e herr =>
        unfold ModelUsageService.attachPromptRef at herr
        rw [show require (promptId ≠ "" ∧ promptVersion ≠ "") _ = .ok () from
          require_ok.mpr ⟨hid, hversion⟩] at herr
        cases herr
      · split
        · exact ⟨hquiet, trivial⟩
        · exact ⟨hquiet, by simp⟩
  | attached u =>
    dsimp only [acquire]
    split
    · exact ⟨hquiet, trivial⟩
    · exact ⟨hquiet, by simp⟩
    next hraises => exact absurd hraises hacquired
  | granted u =>
    dsimp only [activate]
    rw [if_neg hactivates]
    split
    · exact ⟨hquiet, trivial⟩
    · exact ⟨hquiet, by simp⟩
  | activated u =>
    dsimp only [start]
    split
    · split
      · exact ⟨hquiet, trivial⟩
      · exact ⟨hquiet, by simp⟩
    · exact ⟨hquiet, by simp⟩
    next hraises => exact absurd hraises hsendable
  | started u => exact ⟨hquiet, hprovider⟩
  | settling u sent reply =>
    rw [heq] at hphase
    dsimp only [settle]
    split
    · exact ⟨hquiet, statusOf_ne_none hphase⟩
    · exact ⟨hquiet, statusOf_ne_none hphase⟩
  | returned u sent status =>
    rw [heq] at hphase
    dsimp only
    split
    · exact ⟨hquiet, hphase⟩
    · exact ⟨hquiet, hphase⟩
  | closed status =>
    dsimp only
    refine ⟨hquiet, ?_⟩
    rw [heq] at hphase ⊢
    exact hphase

theorem complete_ends : ∀ (n : Nat) (g : Gateway) (a : Attempt), a.phase.toEnd ≤ n →
    (g.complete a n).2.phase.toEnd = 0
  | 0, _, _, h => Nat.le_zero.mp h
  | n + 1, g, a, h => by
    have hnext := toEnd_advance g a
    exact complete_ends n _ _ (by omega)

theorem complete_answering : ∀ (n : Nat) (g : Gateway) (a : Attempt), Answering a →
    Answering (g.complete a n).2
  | 0, _, _, h => h
  | n + 1, _, _, h => complete_answering n _ _ (answering_advance h)

/-- An attempt answers, unless somebody it depends on raises. -/
theorem status_callRoute {g : Gateway} {c : CallRoute} (h : ¬ RaisesIn c.prompt c.fate) :
    statusOfAttempt (g.callRoute c).2 ≠ none := by
  have hend := complete_ends 8 g (enter c) (Nat.le_refl _)
  have hanswering := complete_answering 8 g (enter c) ⟨h, trivial⟩
  unfold statusOfAttempt callRoute
  generalize (g.complete (enter c) 8).2 = a at hend hanswering
  cases hphase : a.phase with
  | closed status =>
    have hstatus := hanswering.2
    rw [hphase] at hstatus
    exact hstatus
  | _ =>
    rw [hphase] at hend
    cases hend

end Gateway

/-! ## One trial -/

namespace Made

/-- What the attempt returned. -/
def status (m : Made) : Option GatewayStatus :=
  Gateway.statusOfAttempt (m.found.callRoute m.call).2

/-- `_wait_within_execution_window`, after the attempt. -/
def Waits (m : Made) : Prop :=
  0 < m.world.send.retryAfter ∧
    ∃ remaining ∈ m.world.attempt.window, m.world.send.retryAfter ≤ remaining

/-- How often the attempt calls the provider. -/
def providerCalls (m : Made) : Nat :=
  if m.world.send.Invokes then Gateway.providerCalls m.found (Gateway.enter m.call) 8 else 0

theorem providerCalls_le (m : Made) : m.providerCalls ≤ 1 := by
  unfold providerCalls
  split
  · exact Gateway.providerCalls_le 8 _ _
  · exact Nat.zero_le _

/-- An attempt of `call` on `route`, in the world it met. -/
structure On (governance : Governance) (call : RoutedCall) (route : ModelRoute) (m : Made) :
    Prop where
  route_eq : m.call.route = route
  prompt_eq : m.call.prompt = call.prompt.map fun p => (p.promptId, p.version)
  fate_eq : m.call.fate = (call.fateOn governance route m.world).fate

/-- Nothing is sent on a route the run does not allow. -/
theorem On.not_sent {governance : Governance} {call : RoutedCall} {route : ModelRoute} {m : Made}
    (h : m.On governance call route) (hroute : route.routeId ∉ call.ctx.allowedRouteIds) :
    m.providerCalls = 0 := by
  unfold providerCalls
  split
  · refine Gateway.providerCalls_refused ?_ 8
    rw [h.fate_eq]
    exact ModelGateway.refusal_of_not_allowed hroute
  · rfl

/-- Nobody the attempt depends on raises. -/
def Quiet (m : Made) : Prop :=
  ¬ Gateway.RaisesIn m.call.prompt m.call.fate

end Made

/-- The attempts at one candidate: one, or another after a wait the window
of the caller allows. -/
def OneOrRetried (ms : List Made) (status : Option GatewayStatus) : Prop :=
  (∃ m, ms = [m] ∧ status = m.status) ∨
    ∃ m m', ms = [m, m'] ∧ m.status = some .rateLimited ∧ m.Waits ∧ status = m'.status

theorem OneOrRetried.length_le {ms : List Made} {status : Option GatewayStatus}
    (h : OneOrRetried ms status) : ms.length ≤ 2 := by
  rcases h with ⟨m, rfl, _⟩ | ⟨m, m', rfl, _⟩
  · exact (by decide : 1 ≤ 2)
  · exact Nat.le_refl _

/-- The result of the trial is that of one of its attempts. -/
theorem OneOrRetried.status_mem {ms : List Made} {status : Option GatewayStatus}
    (h : OneOrRetried ms status) : ∃ m ∈ ms, m.status = status := by
  rcases h with ⟨m, rfl, hstatus⟩ | ⟨m, m', rfl, _, _, hstatus⟩
  · exact ⟨m, List.mem_cons_self, hstatus.symm⟩
  · exact ⟨m', by simp, hstatus.symm⟩

/-- Two attempts of a trial are its first and its second. -/
theorem OneOrRetried.between {ms pre mid post : List Made} {status : Option GatewayStatus}
    {m m' : Made} (h : OneOrRetried ms status) (heq : ms = pre ++ m :: (mid ++ m' :: post)) :
    mid = [] ∧ m.status = some .rateLimited ∧ m.Waits := by
  have hlength := congrArg List.length heq
  simp only [List.length_append, List.length_cons] at hlength
  rcases h with ⟨m₁, rfl, _⟩ | ⟨m₁, m₂, rfl, hlimited, hwaits, _⟩
  · simp only [List.length_cons, List.length_nil] at hlength
    omega
  · simp only [List.length_cons, List.length_nil] at hlength
    have hpre : pre = [] := List.eq_nil_of_length_eq_zero (by omega)
    have hmid : mid = [] := List.eq_nil_of_length_eq_zero (by omega)
    subst hpre hmid
    cases heq
    exact ⟨rfl, hlimited, hwaits⟩

theorem length_flatMap_le {α β : Type} {f : α → List β} : ∀ l : List α,
    (∀ x ∈ l, (f x).length ≤ 2) → (l.flatMap f).length ≤ 2 * l.length
  | [], _ => Nat.le_refl _
  | x :: l, h => by
    have hrest := length_flatMap_le l fun y hy => h y (List.mem_cons_of_mem _ hy)
    have hfirst := h x List.mem_cons_self
    rw [List.flatMap_cons, List.length_append, List.length_cons]
    omega

namespace ModelGateway

variable {limits : AdmissionLimits} {governance : Governance} {call : RoutedCall}

/-- What a trial makes. -/
theorem tryCandidate_made (s : Gateway × Nat) (route : ModelRoute) :
    (∀ m ∈ (tryCandidate limits (call.on governance) s route).2.made call,
        m.On governance call route) ∧
      OneOrRetried ((tryCandidate limits (call.on governance) s route).2.made call)
        (tryCandidate limits (call.on governance) s route).2.called.status := by
  obtain ⟨g, n⟩ := s
  unfold tryCandidate Trial.made Gateway.tryRoute
  dsimp only
  split
  next hretry =>
    refine ⟨fun m hm => ?_, Or.inr ⟨_, _, rfl, hretry.1, hretry.2, rfl⟩⟩
    rcases List.mem_cons.mp hm with rfl | hm
    · exact ⟨rfl, rfl, rfl⟩
    · cases List.mem_singleton.mp hm
      exact ⟨rfl, rfl, rfl⟩
  next =>
    refine ⟨fun m hm => ?_, Or.inl ⟨_, rfl, rfl⟩⟩
    cases List.mem_singleton.mp hm
    exact ⟨rfl, rfl, rfl⟩

/-- How often a call has called the provider on the route `q`. -/
def providerCallsOn (q : String) : List Made → Nat
  | [] => 0
  | m :: ms => (if m.call.route.routeId = q then m.providerCalls else 0) + providerCallsOn q ms

theorem providerCallsOn_append (q : String) : ∀ ms ms' : List Made,
    providerCallsOn q (ms ++ ms') = providerCallsOn q ms + providerCallsOn q ms'
  | [], ms' => (Nat.zero_add _).symm
  | m :: ms, ms' => by
    show _ + providerCallsOn q (ms ++ ms') = _ + providerCallsOn q ms + _
    rw [providerCallsOn_append q ms ms', Nat.add_assoc]

theorem providerCallsOn_le_length (q : String) : ∀ ms : List Made,
    providerCallsOn q ms ≤ ms.length
  | [] => Nat.le_refl _
  | m :: ms => by
    have hrest := providerCallsOn_le_length q ms
    have hone := m.providerCalls_le
    unfold providerCallsOn
    rw [List.length_cons]
    split <;> omega

theorem providerCallsOn_eq_zero {q : String} : ∀ ms : List Made,
    (∀ m ∈ ms, m.call.route.routeId ≠ q) → providerCallsOn q ms = 0
  | [], _ => rfl
  | m :: ms, h => by
    unfold providerCallsOn
    rw [if_neg (h m List.mem_cons_self),
      providerCallsOn_eq_zero ms fun m' hm' => h m' (List.mem_cons_of_mem _ hm')]

/-- Where no candidate is tried twice, two calls of the provider on one
route are those of one trial. -/
theorem providerCallsOn_le {q : String} : ∀ tried : List (ModelRoute × Trial),
    (tried.map fun t => t.1.routeId).Nodup →
    (∀ t ∈ tried, (∀ m ∈ t.2.made call, m.On governance call t.1) ∧
      OneOrRetried (t.2.made call) t.2.called.status) →
    providerCallsOn q (tried.flatMap fun t => t.2.made call) ≤ 2
  | [], _, _ => Nat.zero_le _
  | t :: tried, hnodup, hmade => by
    rw [List.map_cons, List.nodup_cons] at hnodup
    obtain ⟨hon, hshape⟩ := hmade t List.mem_cons_self
    have hlater := fun t' ht' => hmade t' (List.mem_cons_of_mem _ ht')
    have hlength := hshape.length_le
    rw [List.flatMap_cons, providerCallsOn_append]
    by_cases hq : t.1.routeId = q
    · have hnone : providerCallsOn q (tried.flatMap fun t => t.2.made call) = 0 := by
        refine providerCallsOn_eq_zero _ fun m hm he => ?_
        obtain ⟨t', ht', hm'⟩ := List.mem_flatMap.mp hm
        have hroute := ((hlater t' ht').1 m hm').route_eq
        rw [hroute] at he
        exact hnodup.1 (List.mem_map.mpr ⟨t', ht', he.trans hq.symm⟩)
      have hfirst := providerCallsOn_le_length q (t.2.made call)
      omega
    · have hnone : providerCallsOn q (t.2.made call) = 0 :=
        providerCallsOn_eq_zero _ fun m hm he => hq ((hon m hm).route_eq ▸ he)
      have hrest := providerCallsOn_le (q := q) tried hnodup.2 hlater
      omega

/-- How a call has ended. -/
def EndsWell (routes : RouteTable) (graph : FallbackGraph) (call : RoutedCall)
    (answered : RoutedAnswer) : Prop :=
  match answered.answer with
  | .result _ => True
  | .routeUnavailable routeId => routes.find? routeId = none ∧
      (routeId = call.routeId ∨
        ∃ m ∈ answered.made, graph m.call.route.routeId = some routeId)
  | .raised => ∃ m ∈ answered.made, ¬ m.Quiet

/-- Two attempts on one route are of one trial. -/
theorem two_of_one_trial {tried : List (ModelRoute × Trial)} {pre mid post : List Made}
    {m m' : Made} (hnodup : (tried.map fun t => t.1.routeId).Nodup)
    (hon : ∀ t ∈ tried, ∀ m ∈ t.2.made call, m.On governance call t.1)
    (heq : (tried.flatMap fun t => t.2.made call) = pre ++ m :: (mid ++ m' :: post))
    (hroute : m.call.route.routeId = m'.call.route.routeId) :
    ∃ t ∈ tried, ∃ pre' post', t.2.made call = pre' ++ m :: (mid ++ m' :: post') := by
  refine flatMap_split (fun t : ModelRoute × Trial => t.1.routeId) (fun t => t.2.made call)
    (fun m => m.call.route.routeId) tried hnodup ?_ pre m mid m' post heq hroute
  intro t ht b hb
  show b.call.route.routeId = _
  rw [(hon t ht b hb).route_eq]

theorem endsWell_of_ends {routes : RouteTable} {graph : FallbackGraph}
    {walked : Walked String ModelRoute (Gateway × Nat) Trial}
    (hmade : ∀ t ∈ walked.tried, (∀ m ∈ t.2.made call, m.On governance call t.1) ∧
      OneOrRetried (t.2.made call) t.2.called.status)
    (h : EndsAt (candidates routes graph call.ctx.allowedRouteIds) passesOn walked ∨
      (routes.find? call.routeId = none ∧ walked.ending = .unknown call.routeId)) :
    EndsWell routes graph call {
      gateway := walked.state.1
      answer := answerOf walked.ending
      made := walked.tried.flatMap fun t => t.2.made call } := by
  unfold EndsWell
  dsimp only
  rcases h with h | ⟨hnone, hending⟩
  · unfold EndsAt at h
    cases hending : walked.ending with
    | answered t =>
      rw [hending] at h
      obtain ⟨route, hmem⟩ := h
      cases hstatus : t.called.status with
      | some status =>
        have hanswer : answerOf (.answered t) = .result status := by
          unfold answerOf
          dsimp only
          rw [hstatus]
        rw [hanswer]
        trivial
      | none =>
        have hanswer : answerOf (.answered t) = .raised := by
          unfold answerOf
          dsimp only
          rw [hstatus]
        rw [hanswer]
        obtain ⟨m, hm, hraised⟩ := (hmade _ hmem).2.status_mem
        refine ⟨m, List.mem_flatMap.mpr ⟨_, hmem, hm⟩, fun hquiet => ?_⟩
        exact Gateway.status_callRoute hquiet (hraised.trans hstatus)
    | unknown routeId =>
      rw [hending] at h
      obtain ⟨hnone, _, route, t, hmem, hnext, _⟩ := h
      obtain ⟨m, hm, _⟩ := (hmade _ hmem).2.status_mem
      refine ⟨hnone, Or.inr ⟨m, List.mem_flatMap.mpr ⟨_, hmem, hm⟩, ?_⟩⟩
      rw [((hmade _ hmem).1 m hm).route_eq]
      exact (Option.filter_eq_some_iff.mp hnext).1
  · rw [hending]
    exact ⟨hnone, Or.inl rfl⟩

/-- **Fallback stays within the frozen routes.** Along every graph of
fallback routes and whatever becomes of each attempt, a call ends: with a
result, with the error of the registry for the route it was asked for or a
route the graph names, or with what somebody an attempt depends on raised.
It makes at most two attempts for each allowed route and for the one it was
asked for. The provider is called on allowed routes only and at most twice
on each; and where a route is attempted twice, the second attempt comes
right after the first, which was rate limited and followed by a wait. -/
theorem fallback_within_frozen_routes (limits : AdmissionLimits) (routes : RouteTable)
    (graph : FallbackGraph) (governance : Governance) (g : Gateway) (call : RoutedCall) :
    let answered := callAlong limits routes graph governance g call
    EndsWell routes graph call answered ∧
      answered.made.length ≤ 2 * (call.ctx.allowedRouteIds.length + 1) ∧
      (∀ m ∈ answered.made, 0 < m.providerCalls →
        m.call.route.routeId ∈ call.ctx.allowedRouteIds) ∧
      (∀ q, providerCallsOn q answered.made ≤ 2) ∧
      ∀ (pre : List Made) (m : Made) (mid : List Made) (m' : Made) (post : List Made),
        answered.made = pre ++ m :: (mid ++ m' :: post) →
        m.call.route.routeId = m'.call.route.routeId →
        mid = [] ∧ m.status = some .rateLimited ∧ m.Waits := by
  intro answered
  let c := candidates routes graph call.ctx.allowedRouteIds
  let trial := tryCandidate limits (call.on governance)
  have hnodup := walk_nodup c trial passesOn (g, 0) call.routeId
  have hmade := walk_tried c trial passesOn
    (Q := fun route t => (∀ m ∈ t.made call, m.On governance call route) ∧
      OneOrRetried (t.made call) t.called.status)
    tryCandidate_made (g, 0) call.routeId
  have hlength := walk_length c trial passesOn (g, 0) call.routeId
  have hending := walk_ending c trial passesOn (g, 0) call.routeId
  have hmem : ∀ m ∈ answered.made, ∃ t ∈ (walk c trial passesOn (g, 0) call.routeId).tried,
      m ∈ t.2.made call := fun m hm => List.mem_flatMap.mp hm
  refine ⟨?_, ?_, fun m hm hsent => ?_, fun q => providerCallsOn_le _ hnodup hmade, ?_⟩
  · exact endsWell_of_ends hmade hending
  · exact (length_flatMap_le _ fun t ht => (hmade t ht).2.length_le).trans
      (Nat.mul_le_mul_left 2 hlength)
  · obtain ⟨t, ht, hmt⟩ := hmem m hm
    have hon := (hmade t ht).1 m hmt
    by_contra hnot
    rw [hon.route_eq] at hnot
    exact absurd (hon.not_sent hnot) (Nat.ne_of_gt hsent)
  · intro pre m mid m' post heq hroute
    obtain ⟨t, ht, pre', post', hsplit⟩ := two_of_one_trial hnodup
      (fun t ht => (hmade t ht).1) heq hroute
    exact (hmade t ht).2.between hsplit

end ModelGateway

end AgentRuntime
