import AgentRuntime.SourceDeletion

/-!
# Launching a run

`MemoryRuntimeLaunchService`: an archive asks for a run (`enqueue`), the
Runtime creates it held, the business side binds it
(`MemoryAgentBindingService.bind`) and then has it started. Each side effect
is an event that stays pending until it has been delivered, and two passes
pick up what was left half done.

The answers of the Runtime are a `RuntimeGateway`; a call that raises is
`none` or `false`. Every call of `start_held` is recorded (`StartCall`) with
the archive as it was then, and the record outlives a rollback. The sessions
do not flush before a query, so an operation does not find the rows it has
itself added: `stored` is the database the operation started from.
-/

namespace AgentRuntime

open Keyed

/-- What the Runtime says of a held run. -/
structure RuntimeHeldRun where
  runId : String
  contractVersion : String
  packageDigest : String
  authorizationVersion : Int
  deriving DecidableEq, Repr

/-- What the Runtime answers. -/
structure RuntimeGateway where
  createHeld : String → Option RuntimeHeldRun
  startHeld : String → String → Bool
  getRunSummary : String → Option (Option RuntimeHeldRun)
  cancelRun : String → String → Bool

/-- A call of `start_held`: the run, what it was created for, and the archive
at that moment. -/
structure StartCall where
  runId : String
  archiveId : String
  generationEpoch : Nat
  archive : Option MemoryArchive
  deriving DecidableEq, Repr

/-- `_idempotency_key`. -/
def launchKey (phase archiveId : String) (generationEpoch : Nat) : String :=
  s!"memory:{phase}:{archiveId}:{generationEpoch}"

/-- A reference the operation finds: one that was stored before, as it is
now. -/
def seenRef (stored db : MemoirDb) (runId : String) : Option MemoryAgentRunRef :=
  if (stored.runRefs.find? runId).isSome then db.runRefs.find? runId else none

/-- `_event`. -/
def seenEvent (stored db : MemoirDb) (key : String × Nat × LaunchPhase) :
    Option MemoryRuntimeLaunchEvent :=
  if (stored.launchEvents.find? key).isSome then db.launchEvents.find? key else none

/-- Add an event, its identifier and its key being free. -/
def insertLaunchEvent (db : MemoirDb) (event : MemoryRuntimeLaunchEvent) : Result MemoirDb := do
  require (db.launchEvents.rows.all (fun e => decide (e.eventId ≠ event.eventId)) = true)
    .integrity
  match db.launchEvents.insert? event with
  | none => .error .integrity
  | some events => pure { db with launchEvents := events }

/-! ## Binding -/

/-- The optional arguments of `bind`. -/
structure LifecycleMetadata where
  snapshotId : Option String := none
  createIdempotencyKey : Option String := none
  startIdempotencyKey : Option String := none
  contractVersion : Option String := none
  packageDigest : Option String := none
  authorizationVersion : Option Int := none

/-- How many fields `_fill_missing_lifecycle_metadata` sets. -/
def fills {α : Type} (old new : Option α) : Nat :=
  if old.isNone && new.isSome then 1 else 0

/-- `_fill_missing_lifecycle_metadata`. -/
def MemoryAgentRunRef.fillMissing (ref : MemoryAgentRunRef) (now : Time) (m : LifecycleMetadata) :
    MemoryAgentRunRef :=
  let filled := fills ref.snapshotId m.snapshotId
    + fills ref.createIdempotencyKey m.createIdempotencyKey
    + fills ref.startIdempotencyKey m.startIdempotencyKey
    + fills ref.contractVersion m.contractVersion
    + fills ref.packageDigest m.packageDigest
    + fills ref.authorizationVersion m.authorizationVersion
  { ref with
    snapshotId := ref.snapshotId <|> m.snapshotId
    createIdempotencyKey := ref.createIdempotencyKey <|> m.createIdempotencyKey
    startIdempotencyKey := ref.startIdempotencyKey <|> m.startIdempotencyKey
    contractVersion := ref.contractVersion <|> m.contractVersion
    packageDigest := ref.packageDigest <|> m.packageDigest
    authorizationVersion := ref.authorizationVersion <|> m.authorizationVersion
    rowVersion := ref.rowVersion + filled
    updatedAt := if filled = 0 then ref.updatedAt else now }

/-- Add a reference: one per run, and one per archive and generation. -/
def insertRunRef (db : MemoirDb) (ref : MemoryAgentRunRef) : Result MemoirDb := do
  require (db.runRefs.rows.all (fun r => decide (¬ (r.archiveId = ref.archiveId ∧
    r.generationEpoch = ref.generationEpoch))) = true) .integrity
  match db.runRefs.insert? ref with
  | none => .error .integrity
  | some refs => pure { db with runRefs := refs }

namespace MemoryAgentBindingService

/-- `bind`. -/
def bind (stored db : MemoirDb) (now : Time) (archiveId runId : String) (generationEpoch : Nat)
    (m : LifecycleMetadata) : Result (MemoirDb × MemoryAgentRunRef) :=
  match db.liveArchive? archiveId with
  | none => .error (invalid "MEMORY_ARCHIVE_UNAVAILABLE")
  | some archive => do
    require (archive.generationEpoch = generationEpoch) (invalid "GENERATION_SUPERSEDED")
    match seenRef stored db runId with
    | some existing => do
      require (existing.archiveId = archiveId ∧ existing.generationEpoch = generationEpoch)
        (invalid "RUN_BINDING_CONFLICT")
      let ref := existing.fillMissing now m
      pure ({ db with runRefs := db.runRefs.put ref }, ref)
    | none => do
      require (archive.activeRunId.getD "" = "" ∨ archive.activeRunId = some runId)
        (invalid "MEMORY_RUN_ALREADY_ACTIVE")
      let ref : MemoryAgentRunRef := {
        runId := runId
        archiveId := archiveId
        snapshotId := m.snapshotId
        generationEpoch := generationEpoch
        createIdempotencyKey := m.createIdempotencyKey
        startIdempotencyKey := m.startIdempotencyKey
        contractVersion := m.contractVersion
        packageDigest := m.packageDigest
        authorizationVersion := m.authorizationVersion
        updatedAt := now }
      let db₁ ← insertRunRef
        { db with archives := db.archives.put { archive with activeRunId := some runId } } ref
      pure (db₁, ref)

end MemoryAgentBindingService

/-! ## Delivering -/

namespace MemoryRuntimeLaunchEvent

/-- `_mark_delivered`. -/
def markDelivered (event : MemoryRuntimeLaunchEvent) (now : Time) : MemoryRuntimeLaunchEvent :=
  { event with delivered := true, lastErrorCode := none, deliveredAt := some now, updatedAt := now }

/-- `_mark_pending`. -/
def markPending (event : MemoryRuntimeLaunchEvent) (now : Time) (errorCode : String) :
    MemoryRuntimeLaunchEvent :=
  { event with
    delivered := false
    attemptCount := event.attemptCount + 1
    lastErrorCode := some errorCode
    updatedAt := now }

/-- The Runtime has the run, the binding is left to the reconciliation. -/
def awaitBinding (event : MemoryRuntimeLaunchEvent) (now : Time) (runId : String) :
    MemoryRuntimeLaunchEvent :=
  { event with
    runId := some runId
    delivered := true
    attemptCount := event.attemptCount + 1
    lastErrorCode := some "MEMORY_RUNTIME_BINDING_PENDING"
    deliveredAt := some now
    updatedAt := now }

/-- The pass over the orphans notes what it found. -/
def noteOrphan (event : MemoryRuntimeLaunchEvent) (now : Time) (errorCode : Option String) :
    MemoryRuntimeLaunchEvent :=
  { event with
    lastErrorCode := errorCode
    updatedAt := if event.lastErrorCode = errorCode then event.updatedAt else now }

end MemoryRuntimeLaunchEvent

/-- A started run is no longer waiting for its start. -/
def MemoryAgentRunRef.noteStarted (ref : MemoryAgentRunRef) (now : Time) : MemoryAgentRunRef :=
  if ref.status = "pending_start" then
    { ref with status := "pending", rowVersion := ref.rowVersion + 1, updatedAt := now }
  else ref

/-- A reference that is left to the reconciliation. -/
def MemoryAgentRunRef.noteUnstarted (ref : MemoryAgentRunRef) (now : Time) : MemoryAgentRunRef :=
  { ref with
    reconciliationNeeded := true
    updatedAt := if ref.reconciliationNeeded then ref.updatedAt else now }

namespace MemoryRuntimeLaunchService

/-- `enqueue`. -/
def enqueue (db : MemoirDb) (now : Time) (archiveId eventId : String) : Result MemoirDb :=
  match db.liveArchive? archiveId with
  | none => .error (invalid "MEMORY_ARCHIVE_UNAVAILABLE")
  | some archive =>
    match db.snapshots.find? (fun s => s.archiveId = archiveId ∧
        ∀ t ∈ db.snapshots, t.archiveId = archiveId → t.snapshotVersion ≤ s.snapshotVersion) with
    | none => .error (invalid "MEMORY_SNAPSHOT_UNAVAILABLE")
    | some snapshot =>
      match db.launchEvents.find? (archiveId, archive.generationEpoch, .createHeld) with
      | some _ => pure db
      | none =>
        insertLaunchEvent db {
          eventId := eventId
          archiveId := archiveId
          snapshotId := snapshot.snapshotId
          generationEpoch := archive.generationEpoch
          phase := .createHeld
          updatedAt := now }

/-- `_enqueue_start`. -/
def enqueueStart (stored db : MemoirDb) (now : Time) (event : MemoryRuntimeLaunchEvent)
    (runId eventId : String) : Result MemoirDb :=
  match seenEvent stored db (event.archiveId, event.generationEpoch, .startHeld) with
  | some _ => pure db
  | none =>
    insertLaunchEvent db {
      eventId := eventId
      archiveId := event.archiveId
      snapshotId := event.snapshotId
      generationEpoch := event.generationEpoch
      phase := .startHeld
      runId := some runId
      updatedAt := now }

def putEvent (db : MemoirDb) (event : MemoryRuntimeLaunchEvent) : MemoirDb :=
  { db with launchEvents := db.launchEvents.put event }

/-- The metadata of a run the Runtime has created. -/
def heldMetadata (event : MemoryRuntimeLaunchEvent) (held : RuntimeHeldRun) : LifecycleMetadata where
  snapshotId := some event.snapshotId
  createIdempotencyKey := some (launchKey "create" event.archiveId event.generationEpoch)
  contractVersion := some held.contractVersion
  packageDigest := some held.packageDigest
  authorizationVersion := some held.authorizationVersion

/-- The handler of `_deliver_create`, `runId` being what the event has
learnt. -/
def createFailed (db : MemoirDb) (now : Time) (event : MemoryRuntimeLaunchEvent)
    (runId : Option String) : MemoirDb :=
  match runId with
  | some runId => putEvent db (event.awaitBinding now runId)
  | none => putEvent db (event.markPending now "MEMORY_RUNTIME_CREATE_FAILED")

/-- `_deliver_create`. -/
def deliverCreate (g : RuntimeGateway) (stored db : MemoirDb) (now : Time)
    (event : MemoryRuntimeLaunchEvent) (eventId : String) : Result (MemoirDb × Bool) :=
  match g.createHeld (launchKey "create" event.archiveId event.generationEpoch) with
  | none => pure (createFailed db now event event.runId, false)
  | some held =>
    match MemoryAgentBindingService.bind stored db now event.archiveId held.runId
        event.generationEpoch (heldMetadata event held) with
    | .error .integrity => .error .integrity
    | .error _ => pure (createFailed db now event (some held.runId), false)
    | .ok (db₁, _) => do
      let created := { event with runId := some held.runId }
      let db₂ ← enqueueStart stored (putEvent db₁ (created.markDelivered now)) now created
        held.runId eventId
      pure (db₂, true)

/-- What `_deliver_start` does after `start_held` has returned. -/
def bindStarted (stored db : MemoirDb) (now : Time) (event : MemoryRuntimeLaunchEvent)
    (runId : String) : Result (MemoirDb × Bool) :=
  match MemoryAgentBindingService.bind stored db now event.archiveId runId event.generationEpoch
      { startIdempotencyKey := some (launchKey "start" event.archiveId event.generationEpoch) } with
  | .error .integrity => .error .integrity
  | .error _ => pure (putEvent db (event.markPending now "MEMORY_RUNTIME_START_FAILED"), false)
  | .ok (db₁, ref) =>
    pure (putEvent { db₁ with runRefs := db₁.runRefs.put (ref.noteStarted now) }
      (event.markDelivered now), true)

/-- `_deliver_start`, with the calls of `start_held`. -/
def deliverStart (g : RuntimeGateway) (stored db : MemoirDb) (now : Time)
    (event : MemoryRuntimeLaunchEvent) : Result (MemoirDb × Bool) × List StartCall :=
  match event.runId with
  | none => (.error (invalid "MEMORY_RUNTIME_START_RUN_UNAVAILABLE"), [])
  | some runId =>
    let call : StartCall := ⟨runId, event.archiveId, event.generationEpoch,
      db.archives.find? event.archiveId⟩
    if g.startHeld runId (launchKey "start" event.archiveId event.generationEpoch) then
      (bindStarted stored db now event runId, [call])
    else (pure (putEvent db (event.markPending now "MEMORY_RUNTIME_START_FAILED"), false), [call])

/-- `deliver`, after the event has been looked up. -/
def deliverEvent (g : RuntimeGateway) (stored db : MemoirDb) (now : Time)
    (event : MemoryRuntimeLaunchEvent) (newEventId : String) :
    Result (MemoirDb × Bool) × List StartCall :=
  if event.delivered then (pure (db, false), [])
  else
    match event.phase with
    | .createHeld => (deliverCreate g stored db now event newEventId, [])
    | .startHeld => deliverStart g stored db now event

/-- The event of an identifier. -/
def eventById (db : MemoirDb) (eventId : String) : Option MemoryRuntimeLaunchEvent :=
  db.launchEvents.rows.find? (fun e => decide (e.eventId = eventId))

/-- `deliver`. -/
def deliver (g : RuntimeGateway) (stored db : MemoirDb) (now : Time) (eventId newEventId : String) :
    Result (MemoirDb × Bool) × List StartCall :=
  match eventById db eventId with
  | none => (.error (invalid "MEMORY_RUNTIME_LAUNCH_EVENT_UNAVAILABLE"), [])
  | some event => deliverEvent g stored db now event newEventId

/-! ## Reconciling -/

/-- One reference of `reconcile_pending_start`. -/
def reconcileStart (g : RuntimeGateway) (stored db : MemoirDb) (now : Time) (runId : String) :
    Result MemoirDb × List StartCall :=
  match db.runRefs.find? runId with
  | none => (pure db, [])
  | some ref =>
    if now ≤ ref.updatedAt + seconds 600 then (pure db, [])
    else
      match seenEvent stored db (ref.archiveId, ref.generationEpoch, .startHeld) with
      | none => (pure { db with runRefs := db.runRefs.put (ref.noteUnstarted now) }, [])
      | some event =>
        if event.runId = some runId then
          let pending := { event with delivered := false }
          let sent := deliverEvent g stored (putEvent db pending) now pending ""
          (sent.1.map (·.1), sent.2)
        else (pure { db with runRefs := db.runRefs.put (ref.noteUnstarted now) }, [])

/-- A loop over rows, one after the other. A row that breaks a constraint
shows at the commit, so the loop goes on and the whole is rolled back. -/
def sweep {α : Type} (one : MemoirDb → α → Result MemoirDb × List StartCall) :
    MemoirDb → List α → Result MemoirDb × List StartCall
  | db, [] => (pure db, [])
  | db, row :: rows =>
    match one db row with
    | (.ok db₁, calls) =>
      let rest := sweep one db₁ rows
      (rest.1, calls ++ rest.2)
    | (.error .integrity, calls) => (.error .integrity, calls ++ (sweep one db rows).2)
    | (.error e, calls) => (.error e, calls)

/-- `reconcile_pending_start`. -/
def reconcilePendingStart (g : RuntimeGateway) (db : MemoirDb) (now : Time) :
    Result MemoirDb × List StartCall :=
  sweep (fun db₁ runId => reconcileStart g db db₁ now runId) db
    ((db.runRefs.rows.filter (fun ref => decide (ref.status = "pending_start"))).map (·.runId))

/-- One event of `deliver_pending`. -/
def deliverNext (g : RuntimeGateway) (stored db : MemoirDb) (now : Time)
    (newEventId : String → String) (eventId : String) : Result MemoirDb × List StartCall :=
  let sent := deliver g stored db now eventId (newEventId eventId)
  (sent.1.map (·.1), sent.2)

/-- `deliver_pending`. -/
def deliverPending (g : RuntimeGateway) (db : MemoirDb) (now : Time) (limit : Nat)
    (newEventId : String → String) : Result MemoirDb × List StartCall :=
  sweep (fun db₁ eventId => deliverNext g db db₁ now newEventId eventId) db
    (((db.launchEvents.rows.filter (fun e => !e.delivered)).take limit).map (·.eventId))

/-- `_archive_is_current`. -/
def archiveIsCurrent (db : MemoirDb) (event : MemoryRuntimeLaunchEvent) : Bool :=
  match db.liveArchive? event.archiveId with
  | none => false
  | some archive =>
    decide (archive.generationEpoch = event.generationEpoch ∧
      (archive.activeRunId = none ∨ archive.activeRunId = event.runId))

/-- Cancel an orphan, and note whether that worked. -/
def cancelOrphan (g : RuntimeGateway) (db : MemoirDb) (now : Time)
    (event : MemoryRuntimeLaunchEvent) (runId : String) : MemoirDb :=
  if g.cancelRun runId (launchKey "cancel" event.archiveId event.generationEpoch) then
    putEvent db (event.noteOrphan now (some "MEMORY_RUNTIME_ORPHAN_CANCELLED"))
  else putEvent db (event.noteOrphan now (some "MEMORY_RUNTIME_ORPHAN_CANCEL_FAILED"))

/-- Bind an orphan that is still wanted, cancel any other. -/
def recoverOrphan (g : RuntimeGateway) (stored db : MemoirDb) (now : Time)
    (event : MemoryRuntimeLaunchEvent) (held : RuntimeHeldRun) (eventId : String) :
    Result MemoirDb :=
  if archiveIsCurrent db event then
    match MemoryAgentBindingService.bind stored db now event.archiveId held.runId
        event.generationEpoch (heldMetadata event held) with
    | .error .integrity => .error .integrity
    | .error _ => pure (cancelOrphan g db now event held.runId)
    | .ok (db₁, _) => do
      let db₂ ← enqueueStart stored db₁ now event held.runId eventId
      pure (putEvent db₂ (event.noteOrphan now none))
  else pure (cancelOrphan g db now event held.runId)

/-- One event of `reconcile_orphaned_create`. -/
def reconcileOrphan (g : RuntimeGateway) (stored db : MemoirDb) (now : Time)
    (event : MemoryRuntimeLaunchEvent) (runId eventId : String) : Result MemoirDb :=
  if now ≤ event.deliveredAt.getD event.updatedAt + seconds 600 then pure db
  else if (seenRef stored db runId).isSome then pure db
  else
    match g.getRunSummary runId with
    | none => .error (invalid "MEMORY_RUNTIME_UNAVAILABLE")
    | some none => pure (putEvent db (event.noteOrphan now (some "MEMORY_RUNTIME_ORPHAN_NOT_FOUND")))
    | some (some held) =>
      if held.runId = runId then recoverOrphan g stored db now event held eventId
      else pure (putEvent db (event.noteOrphan now (some "MEMORY_RUNTIME_ORPHAN_ID_MISMATCH")))

/-- The loop of `reconcile_orphaned_create`; `newEventId` names the start
event a create event gets. -/
def reconcileOrphans (g : RuntimeGateway) (stored : MemoirDb) (now : Time)
    (newEventId : String → String) :
    MemoirDb → List MemoryRuntimeLaunchEvent → Result MemoirDb
  | db, [] => pure db
  | db, event :: events =>
    match event.runId with
    | none => reconcileOrphans g stored now newEventId db events
    | some runId => do
      let db₁ ← reconcileOrphan g stored db now event runId (newEventId event.eventId)
      reconcileOrphans g stored now newEventId db₁ events

/-- `reconcile_orphaned_create`. -/
def reconcileOrphanedCreate (g : RuntimeGateway) (db : MemoirDb) (now : Time)
    (newEventId : String → String) : Result MemoirDb :=
  reconcileOrphans g db now newEventId db
    (db.launchEvents.rows.filter (fun e => decide (e.phase = .createHeld) && e.delivered))

end MemoryRuntimeLaunchService

end AgentRuntime
