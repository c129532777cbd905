import AgentRuntime.Lib.Fence
import AgentRuntime.Admission
import AgentRuntime.Outbox

/-!
# The worker lease

`LeaseService`: the conditional updates by which a worker takes a run,
keeps it, and lets go of it, and the reaper that takes it away. Each
operation is one committed transaction on the database; `now` is the
instant it reads from the clock.

What an operation writes to the run row is a function of its own
(`AgentRun.claimBy`, `AgentRun.endWith`, …), so that the conditions under
which a row may change can be stated on rows alone later on.
-/

namespace AgentRuntime

open Keyed Fencing

/-- Ownership and fencing data a worker carries into every write. -/
structure LeaseContext where
  executionAttempt : Nat
  leaseOwner : String
  fencingToken : Nat
  leaseExpiresAt : Time
  privacyVersion : Nat
  authorizationVersion : Int
  deriving DecidableEq, Repr

/-- What an executor returns. -/
structure AgentRunResult where
  runId : String
  status : RunStatus
  errorCode : Option String := none
  deriving DecidableEq, Repr

namespace AgentRun

/-! ## What the operations write -/

/-- A worker takes the run. -/
def claimBy (run : AgentRun) (now : Time) (leaseSeconds : Nat) (owner : String) : AgentRun :=
  { run with
    dispatchState := .claimed
    leaseOwner := some owner
    executionAttempt := run.executionAttempt + 1
    fencingToken := run.fencingToken + 1
    leaseExpiresAt := some (now + seconds leaseSeconds)
    claimedAt := some now }

/-- The lease now ends at `until`. -/
def leaseUntil (run : AgentRun) (t : Time) : AgentRun :=
  { run with leaseExpiresAt := some t }

/-- The run ends and its lease is cleared. -/
def endWith (run : AgentRun) (now : Time) (status : RunStatus) (errorCode : Option String) :
    AgentRun :=
  { run with
    status := status
    dispatchState := .finished
    leaseOwner := none
    leaseExpiresAt := none
    finishedAt := some now
    statusVersion := run.statusVersion + 1
    errorCode := errorCode }

/-- The run waits for a human decision. -/
def pauseUntil (run : AgentRun) (t : Time) : AgentRun :=
  { run with
    status := .waitingHuman
    dispatchState := .finished
    waitingExpiresAt := some t
    leaseOwner := none
    leaseExpiresAt := none
    statusVersion := run.statusVersion + 1 }

/-- The status a reaped run gets: a run that was executing is pending
again. -/
def statusAfterReap : RunStatus → RunStatus
  | .planning | .running | .evaluating => .pending
  | s => s

/-- The reaper puts the run back into the queue. -/
def reap (run : AgentRun) (now : Time) : AgentRun :=
  { run with
    status := statusAfterReap run.status
    dispatchState := .queued
    leaseOwner := none
    leaseExpiresAt := none
    queuedAt := some now
    statusVersion :=
      if statusAfterReap run.status ≠ run.status then run.statusVersion + 1
      else run.statusVersion }

/-! ## The conditions -/

/-- The `where` clause of `claim`. -/
def Claimable (run : AgentRun) : Prop :=
  run.dispatchState = .queued ∧ (run.status = .pending ∨ run.status = .waitingHuman) ∧
    run.cancelRequestedAt = none

/-- Owner and token of the row are those of the context. -/
def OwnedBy (run : AgentRun) (ctx : LeaseContext) : Prop :=
  run.dispatchState = .claimed ∧ run.leaseOwner = some ctx.leaseOwner ∧
    run.fencingToken = ctx.fencingToken

/-- No cancellation, and the privacy and authorization versions of the
context. -/
def Unrevoked (run : AgentRun) (ctx : LeaseContext) : Prop :=
  run.cancelRequestedAt = none ∧ run.privacyState = .active ∧
    run.privacyVersion = ctx.privacyVersion ∧
    run.authorizationVersion = ctx.authorizationVersion

/-- The `where` clause of `heartbeat`. -/
def Renewable (run : AgentRun) (ctx : LeaseContext) (now : Time) : Prop :=
  run.OwnedBy ctx ∧ run.executionAttempt = ctx.executionAttempt ∧ run.Unrevoked ctx ∧
    heldAfter run.leaseExpiresAt now ∧ now < run.runDeadlineAt

/-- The lease of the row ended before `now`. -/
def LeaseExpired (run : AgentRun) (now : Time) : Prop :=
  ∃ t, run.leaseExpiresAt = some t ∧ t < now

instance (run : AgentRun) : Decidable run.Claimable := by
  unfold Claimable; infer_instance

instance (run : AgentRun) (ctx : LeaseContext) : Decidable (run.OwnedBy ctx) := by
  unfold OwnedBy; infer_instance

instance (run : AgentRun) (ctx : LeaseContext) : Decidable (run.Unrevoked ctx) := by
  unfold Unrevoked; infer_instance

instance (run : AgentRun) (ctx : LeaseContext) (now : Time) :
    Decidable (run.Renewable ctx now) := by
  unfold Renewable; infer_instance

instance (run : AgentRun) (now : Time) : Decidable (run.LeaseExpired now) :=
  match h : run.leaseExpiresAt with
  | none => isFalse fun ⟨t, ht, _⟩ => by simp [h] at ht
  | some t => decidable_of_iff (t < now) (by simp [LeaseExpired, h])

end AgentRun

/-- `_package_executable`: the definition the run froze still exists, is
active and has the same digest. -/
def packageExecutable (db : Db) (run : AgentRun) : Bool :=
  match db.definition? run.agentId run.agentVersion with
  | none => false
  | some d => decide (d.status = .active ∧ d.packageDigest = run.packageDigest)

/-- The row conditions of `can_write`. -/
def Writable (db : Db) (now : Time) (run : AgentRun) (ctx : LeaseContext) : Prop :=
  run.OwnedBy ctx ∧ run.Unrevoked ctx ∧ heldAfter run.leaseExpiresAt now ∧
    now < ctx.leaseExpiresAt ∧ now < run.runDeadlineAt ∧ packageExecutable db run = true

instance (db : Db) (now : Time) (run : AgentRun) (ctx : LeaseContext) :
    Decidable (Writable db now run ctx) := by
  unfold Writable; infer_instance

namespace LeaseService

/-! ## The operations -/

/-- `claim`. -/
def claim (db : Db) (now : Time) (leaseSeconds : Nat) (runId owner : String) :
    Result (Db × Option LeaseContext) :=
  match db.runs.find? runId with
  | none => pure (db, none)
  | some run =>
    if run.Claimable then do
      let run' := run.claimBy now leaseSeconds owner
      let db' ← transitionRun {} { db with runs := db.runs.put run' } run'
        (some .queued) .claimed
      pure (db'.commit, some {
        executionAttempt := run'.executionAttempt
        leaseOwner := owner
        fencingToken := run'.fencingToken
        leaseExpiresAt := now + seconds leaseSeconds
        privacyVersion := run'.privacyVersion
        authorizationVersion := run'.authorizationVersion })
    else pure (db, none)

/-- `heartbeat`; the context that comes back carries the new expiry. -/
def heartbeat (db : Db) (now : Time) (leaseSeconds : Nat) (runId : String)
    (ctx : LeaseContext) : Db × LeaseContext × Bool :=
  match db.runs.find? runId with
  | none => (db, ctx, false)
  | some run =>
    if run.Renewable ctx now then
      let renewedUntil := now + seconds leaseSeconds
      (Db.commit { db with runs := db.runs.put (run.leaseUntil renewedUntil) },
        { ctx with leaseExpiresAt := renewedUntil }, true)
    else (db, ctx, false)

/-- `can_write`. -/
def canWrite (db : Db) (now : Time) (runId : String) (ctx : LeaseContext) : Bool :=
  match db.runs.find? runId with
  | none => false
  | some run => decide (Writable db now run ctx)

/-- `finish`. -/
def finish (db : Db) (now : Time) (result : AgentRunResult) (ctx : LeaseContext) :
    Result (Db × Bool) :=
  match db.runs.find? result.runId with
  | none => pure (db, false)
  | some run =>
    if result.status.isTerminal = true ∧ Writable db now run ctx then do
      let run' := run.endWith now result.status result.errorCode
      let db₁ ← transitionRun {} { db with runs := db.runs.put run' } run'
        (some .claimed) .finished
      let db₂ ← appendCallback db₁ run' result.status
      pure (db₂.commit, true)
    else pure (db, false)

/-- `release_for_drain`: the lease ends now, and the reaper takes over. -/
def releaseForDrain (db : Db) (now : Time) (runId : String) (ctx : LeaseContext) :
    Db × Bool :=
  match db.runs.find? runId with
  | none => (db, false)
  | some run =>
    if Writable db now run ctx then
      (Db.commit { db with runs := db.runs.put (run.leaseUntil now) }, true)
    else (db, false)

/-- `finish_after_invalid_boundary`: after a cancellation or a purge the
holder of the lease may only end the run. -/
def finishAfterInvalidBoundary (db : Db) (now : Time) (runId : String) (ctx : LeaseContext) :
    Result (Db × Bool) :=
  match db.runs.find? runId with
  | none => pure (db, false)
  | some run =>
    if run.OwnedBy ctx ∧ run.executionAttempt = ctx.executionAttempt ∧
        ¬ (run.cancelRequestedAt = none ∧ run.privacyState = .active) then do
      let run' := run.endWith now .cancelled run.errorCode
      let db₁ ← transitionRun {} { db with runs := db.runs.put run' } run'
        (some .claimed) .finished
      let db₂ ← appendCallback db₁ run' .cancelled
      pure (db₂.commit, true)
    else pure (db, false)

/-- `pause_for_human`. -/
def pauseForHuman (db : Db) (now : Time) (runId : String) (ctx : LeaseContext)
    (timeoutSeconds : Int) : Result (Db × Bool) :=
  match db.runs.find? runId with
  | none => pure (db, false)
  | some run =>
    if 0 < timeoutSeconds ∧ Writable db now run ctx then do
      let run' := run.pauseUntil (now + seconds timeoutSeconds.toNat)
      let db₁ ← transitionRun {} { db with runs := db.runs.put run' } run'
        (some .claimed) .finished
      let db₂ ← appendCallbackEvent db₁ run' "waiting_human"
      pure (db₂.commit, true)
    else pure (db, false)

/-- One turn of the loop of `reap_expired`, on the row it selected. -/
def reapOne (db : Db) (now : Time) (selected : AgentRun) : Result (Db × Bool) :=
  match db.runs.find? selected.runId with
  | none => pure (db, false)
  | some run =>
    if run.status = selected.status ∧ run.dispatchState = .claimed ∧ run.LeaseExpired now then
      if packageExecutable db run then do
        let run' := run.reap now
        let db' ← transitionRun {} { db with runs := db.runs.put run' } run'
          (some .claimed) .queued
        pure (appendRunDispatch db' run.runId "lease_reaped", true)
      else do
        let run' := run.endWith now .cancelled (some "PACKAGE_REVOKED")
        let db₁ ← transitionRun {} { db with runs := db.runs.put run' } run'
          (some .claimed) .finished
        let db₂ ← appendCallback db₁ run' .cancelled
        pure (db₂, false)
    else pure (db, false)

/-- The loop of `reap_expired`; the list is what was selected. -/
def reapAll (now : Time) : Db → List AgentRun → Result (Db × List String)
  | db, [] => pure (db, [])
  | db, selected :: rest => do
    let (db₁, recovered) ← reapOne db now selected
    let (db₂, others) ← reapAll now db₁ rest
    pure (db₂, if recovered then selected.runId :: others else others)

/-- `reap_expired(commit=False)`. -/
def reapExpired (db : Db) (now : Time) : Result (Db × List String) :=
  reapAll now db (db.runs.rows.filter
    (fun run => decide (run.dispatchState = .claimed ∧ run.LeaseExpired now)))

end LeaseService

end AgentRuntime
