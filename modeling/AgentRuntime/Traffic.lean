import AgentRuntime.ModelUsage
import AgentRuntime.Lib.Expiring
import Mathlib.Algebra.Order.Ring.Nat

/-!
# The shared traffic permits

`_PERMIT_SCRIPT`, which runs atomically on the store all workers share. For
the routes of one rate-limit key the store holds the permits that occupy a
slot (`active`, by deadline), the permits of the last minute (`rpm`, `tpm`,
by the instant of the grant, and `tokenAmounts`), and the cooldown
(`blocked`); for each permit a hash with its state, which the store keeps
for a minute past the end of the slot; and for each route its circuit.

Nobody runs when a permit expires: most operations first reap the slots
whose deadline has passed (`reapExpiredPermits`), which rolls a permit that
was never started back. Deadlines of the store's keys run on the clock the
workers read `now` from.
-/

namespace AgentRuntime

open Keyed Expiring

/-- A set whose members have a score. -/
abbrev ZSet := Table (fun e : String × Time => e.1)

/-- A hash of amounts. -/
abbrev Amounts := Table (fun e : String × Nat => e.1)

/-- The `state` field of the hash of a permit. -/
inductive PermitState
  | acquired | started | settled | expired
  deriving DecidableEq, Repr

/-- The hash of a permit; a hash that a reaping recreates has no route. -/
structure PermitHash where
  state : PermitState
  routeId : Option String
  deriving DecidableEq, Repr

/-- The first value of a reply of the script. -/
inductive PermitStatus
  | acquired | started | settled | expired
  | alreadyStarted | alreadySettled | routeMismatch
  | blocked | circuitOpen | concurrencyExceeded | rpmExceeded | tpmExceeded
  | circuitAvailable | circuitDisabled | circuitOpened | circuitFailure
  | circuitRecovered | circuitReset
  deriving DecidableEq, Repr

def PermitState.status : PermitState → PermitStatus
  | acquired => .acquired
  | started => .started
  | settled => .settled
  | expired => .expired

/-- The keys of one rate-limit key. -/
structure Redis where
  active : ZSet := Table.empty
  rpm : ZSet := Table.empty
  tpm : ZSet := Table.empty
  tokenAmounts : Amounts := Table.empty
  permits : String → Option (Stored PermitHash) := fun _ => none
  blocked : Option (Stored Time) := none
  circuitFailures : String → Option (Stored Nat) := fun _ => none
  circuitOpen : String → Option (Stored Time) := fun _ => none

/-- `math.ceil`, from an interval to whole seconds. -/
def ceilSeconds (t : Time) : Time :=
  seconds ((t + 999999) / 1000000)

/-- The length of the rate windows. -/
def rateWindow : Time := seconds 60

/-- What a worker asks the script for. -/
inductive TrafficOp
  | acquire (permit : String) (tokens : Nat)
  | started (permit : String)
  | settle (permit : String) (retryAfter : Time)
  | circuitPreflight
  | circuitFailure
  | circuitSuccess
  deriving DecidableEq, Repr

namespace Redis

/-- `HGET permit`, all fields at once. -/
def hash (r : Redis) (now : Time) (permit : String) : Option PermitHash :=
  get now (r.permits permit)

/-- `HSET permit 'state' …` on a hash that exists: its deadline stays. -/
def setState (r : Redis) (permit : String) (state : PermitState) : Redis :=
  { r with permits := Function.update r.permits permit ((r.permits permit).map fun v =>
      { v with value := { v.value with state := state } }) }

/-- A permit whose slot has expired. One that was only acquired leaves the
rate windows; the hash is kept for a minute, recreated if need be. -/
def reapPermit (now : Time) (r : Redis) (permit : String) : Redis :=
  let windows (t : ZSet) : ZSet :=
    if (r.hash now permit).map (·.state) = some .acquired then t.erase permit else t
  { r with
    active := r.active.erase permit
    rpm := windows r.rpm
    tpm := windows r.tpm
    tokenAmounts :=
      if (r.hash now permit).map (·.state) = some .acquired then r.tokenAmounts.erase permit
      else r.tokenAmounts
    permits := Function.update r.permits permit (some {
      value := { state := .expired, routeId := (r.hash now permit).bind (·.routeId) }
      expiresAt := some (now + rateWindow) }) }

/-- The members of a set whose score is at most `now`. -/
def upTo (t : ZSet) (now : Time) : List String :=
  (t.rows.filter (fun e => decide (e.2 ≤ now))).map Prod.fst

/-- `reap_expired_permits`. -/
def reapExpiredPermits (r : Redis) (now : Time) : Redis :=
  (upTo r.active now).foldl (reapPermit now) r

/-- The members of a set that have left the rate window. -/
def stale (t : ZSet) (now : Time) : List String :=
  (t.rows.filter (fun e => decide (e.2 + rateWindow ≤ now))).map Prod.fst

/-- The part of `acquire` that drops what has left the rate windows. -/
def trim (r : Redis) (now : Time) : Redis :=
  { r with
    rpm := r.rpm.filter (fun e => decide (¬ e.2 + rateWindow ≤ now))
    tpm := r.tpm.filter (fun e => decide (e.1 ∉ stale r.tpm now))
    tokenAmounts := r.tokenAmounts.filter (fun e => decide (e.1 ∉ stale r.tpm now)) }

/-- The sum of `HVALS token_amounts`. -/
def usedTokens (r : Redis) : Nat :=
  (r.tokenAmounts.rows.map Prod.snd).sum

/-- The keys an admitted permit gets. -/
def grant (r : Redis) (route : ModelRoute) (now : Time) (permit : String) (tokens : Nat) : Redis :=
  { r with
    active := r.active.upsert (permit, now + route.permitTtl)
    rpm := r.rpm.upsert (permit, now)
    tpm := r.tpm.upsert (permit, now)
    tokenAmounts := r.tokenAmounts.upsert (permit, tokens)
    permits := Function.update r.permits permit (some {
      value := { state := .acquired, routeId := some route.routeId }
      expiresAt := some (now + (ceilSeconds route.permitTtl + rateWindow)) }) }

/-- `acquire` past the checks that come before the reaping. -/
def checkLimits (r : Redis) (route : ModelRoute) (now : Time) (permit : String) (tokens : Nat) :
    Redis × PermitStatus × Time :=
  let r := r.reapExpiredPermits now
  if route.maxConcurrency ≤ r.active.rows.length then (r, .concurrencyExceeded, 0)
  else
    let r := r.trim now
    if route.rpmLimit ≤ r.rpm.rows.length then (r, .rpmExceeded, 0)
    else if route.tpmLimit < r.usedTokens + tokens then (r, .tpmExceeded, 0)
    else (r.grant route now permit tokens, .acquired, route.permitTtl)

/-- `acquire`. -/
def acquire (r : Redis) (route : ModelRoute) (now : Time) (permit : String) (tokens : Nat) :
    Redis × PermitStatus × Time :=
  let openUntil := (get now (r.circuitOpen route.routeId)).getD 0
  if 0 < route.circuitFailureThreshold ∧ now < openUntil then (r, .circuitOpen, openUntil)
  else
    match (r.hash now permit).bind (fun h => h.routeId.map fun routeId => (routeId, h.state)) with
    | some (routeId, state) =>
      if routeId ≠ route.routeId then (r, .routeMismatch, 0) else (r, state.status, 0)
    | none =>
      let blockedUntil := (get now r.blocked).getD 0
      if now < blockedUntil then (r, .blocked, blockedUntil)
      else r.checkLimits route now permit tokens

/-- `started`. -/
def started (r : Redis) (route : ModelRoute) (now : Time) (permit : String) :
    Redis × PermitStatus × Time :=
  let r := r.reapExpiredPermits now
  match r.hash now permit with
  | none => (r, .expired, 0)
  | some h =>
    if h.routeId ≠ some route.routeId then (r, .routeMismatch, 0)
    else
      match h.state with
      | .acquired => (r.setState permit .started, .started, 0)
      | .started => (r, .alreadyStarted, 0)
      | state => (r, state.status, 0)

/-- The cooldown a settlement asks for, no earlier than the present one. -/
def cooldown (r : Redis) (now retryAfter : Time) : Time :=
  max ((get now r.blocked).getD 0) (now + retryAfter)

/-- `settle`. -/
def settle (r : Redis) (route : ModelRoute) (now : Time) (permit : String) (retryAfter : Time) :
    Redis × PermitStatus × Time :=
  let r := r.reapExpiredPermits now
  match r.hash now permit with
  | none => (r, .alreadySettled, 0)
  | some h =>
    if h.routeId ≠ some route.routeId then (r, .routeMismatch, 0)
    else if h.state = .settled then (r, .alreadySettled, 0)
    else
      let r := { r.setState permit .settled with active := r.active.erase permit }
      if 0 < retryAfter then
        let blockedUntil := r.cooldown now retryAfter
        ({ r with blocked := some {
            value := blockedUntil
            expiresAt := some (now + ceilSeconds (blockedUntil - now)) } }, .settled, 0)
      else (r, .settled, 0)

/-- `circuit_preflight`. -/
def circuitPreflight (r : Redis) (route : ModelRoute) (now : Time) : Redis × PermitStatus × Time :=
  let openUntil := (get now (r.circuitOpen route.routeId)).getD 0
  if route.circuitFailureThreshold ≠ 0 ∧ now < openUntil then (r, .circuitOpen, openUntil)
  else (r, .circuitAvailable, 0)

/-- `circuit_failure`. -/
def recordCircuitFailure (r : Redis) (route : ModelRoute) (now : Time) :
    Redis × PermitStatus × Time :=
  if route.circuitFailureThreshold = 0 then (r, .circuitDisabled, 0)
  else
    let count := (get now (r.circuitFailures route.routeId)).getD 0 + 1
    let deadline := now + max (seconds 1) (ceilSeconds route.circuitOpen)
    let counted : Stored Nat := { value := count, expiresAt := some deadline }
    let openUntil : Stored Time :=
      { value := now + route.circuitOpen, expiresAt := some deadline }
    let r := { r with
      circuitFailures := Function.update r.circuitFailures route.routeId (some counted) }
    if route.circuitFailureThreshold ≤ count then
      ({ r with circuitOpen := Function.update r.circuitOpen route.routeId (some openUntil) },
        .circuitOpened, now + route.circuitOpen)
    else (r, .circuitFailure, count)

/-- `circuit_success`. -/
def recordCircuitSuccess (r : Redis) (route : ModelRoute) (now : Time) :
    Redis × PermitStatus × Time :=
  let recovered := (get now (r.circuitFailures route.routeId)).isSome ∨
    (get now (r.circuitOpen route.routeId)).isSome
  ({ r with
      circuitFailures := Function.update r.circuitFailures route.routeId none
      circuitOpen := Function.update r.circuitOpen route.routeId none },
    if recovered then .circuitRecovered else .circuitReset, 0)

/-- `_PERMIT_SCRIPT`. -/
def permitScript (r : Redis) (route : ModelRoute) (now : Time) : TrafficOp →
    Redis × PermitStatus × Time
  | .acquire permit tokens => r.acquire route now permit tokens
  | .started permit => r.started route now permit
  | .settle permit retryAfter => r.settle route now permit retryAfter
  | .circuitPreflight => r.circuitPreflight route now
  | .circuitFailure => r.recordCircuitFailure route now
  | .circuitSuccess => r.recordCircuitSuccess route now

end Redis

end AgentRuntime
