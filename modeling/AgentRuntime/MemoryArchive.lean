import AgentRuntime.PlaybackDocument

/-!
# Memory archives

The business side of the memoir: an archive per owner of a relationship, the
revisions of its playback document and the pointer that says which one is
published. `MemoryArchiveService` creates the two archives of a relationship
and publishes documents.

The identifiers drawn with `uuid4` are arguments. The unique constraints are
the keys of the tables, and where a table has a second one it is checked
where a row is inserted; a violation rolls the transaction back. Columns that
no modelled operation reads (titles, payloads, digests of a document, the
enhancement status) are left out; the snapshot's text is represented by its
digest.
-/

namespace AgentRuntime

open Keyed

/-- `memory_archives.content_status`. -/
inductive ContentStatus
  | baseline | pending | running | waitingHuman | succeeded | failed | cancelled
  deriving DecidableEq, Repr

/-- A row of `memory_archives`. -/
structure MemoryArchive where
  archiveId : String
  relationshipId : Int
  spaceId : String
  relationshipSegmentNo : Int
  ownerUserId : Int
  partnerUserId : Int
  contentStatus : ContentStatus := .baseline
  generationEpoch : Nat := 0
  activeRunId : Option String := none
  publishedRevision : Nat := 0
  deletedAt : Option Time := none
  deriving DecidableEq, Repr

/-- A row of `memory_playback_documents`. -/
structure MemoryPlaybackDocument where
  documentId : String
  archiveId : String
  revision : Nat
  isPublished : Bool := false
  retainUntil : Option Time := none
  deriving DecidableEq, Repr

def MemoryPlaybackDocument.key (d : MemoryPlaybackDocument) : String × Nat :=
  (d.archiveId, d.revision)

/-- A row of `memory_source_references`. -/
structure MemorySourceReference where
  archiveId : String
  documentId : String
  revision : Nat
  source : Source
  deriving DecidableEq, Repr

/-- A row of `memory_scenes`. -/
structure MemoryScene where
  sceneId : String
  documentId : String
  sceneOrder : Int
  deriving DecidableEq, Repr

/-- A row of `memory_actions`. -/
structure MemoryAction where
  actionId : String
  sceneId : String
  actionOrder : Int
  deriving DecidableEq, Repr

/-- A row of `memory_snapshots`. -/
structure MemorySnapshot where
  snapshotId : String
  archiveId : String
  snapshotVersion : Nat := 1
  sourceManifest : List (String × Json)
  sourceManifestHash : String
  privacyFilterVersion : String
  snapshotCutoffAt : Time
  contentDigest : String

/-- A row of `memory_agent_run_refs`. -/
structure MemoryAgentRunRef where
  runId : String
  archiveId : String
  snapshotId : Option String := none
  generationEpoch : Nat
  status : String := "pending_start"
  rowVersion : Nat := 1
  statusVersion : Int := 1
  eventSeq : Int := 0
  reconciliationNeeded : Bool := false
  publicTrace : List (String × String × Option String) := []
  createIdempotencyKey : Option String := none
  startIdempotencyKey : Option String := none
  privacyPurgeIdempotencyKey : Option String := none
  contractVersion : Option String := none
  packageDigest : Option String := none
  authorizationVersion : Option Int := none
  purgeState : String := "active"
  updatedAt : Time
  deriving DecidableEq, Repr

/-- `memory_runtime_launch_events.phase`. -/
inductive LaunchPhase
  | createHeld | startHeld
  deriving DecidableEq, Repr

/-- A row of `memory_runtime_launch_events`; `delivered` is its status. -/
structure MemoryRuntimeLaunchEvent where
  eventId : String
  archiveId : String
  snapshotId : String
  generationEpoch : Nat
  phase : LaunchPhase
  runId : Option String := none
  delivered : Bool := false
  attemptCount : Nat := 0
  lastErrorCode : Option String := none
  deliveredAt : Option Time := none
  updatedAt : Time
  deriving DecidableEq, Repr

def MemoryRuntimeLaunchEvent.key (e : MemoryRuntimeLaunchEvent) : String × Nat × LaunchPhase :=
  (e.archiveId, e.generationEpoch, e.phase)

/-- A row of `memory_runtime_compensation_events`. -/
structure MemoryRuntimeCompensationEvent where
  archiveId : String
  runId : String
  generationEpoch : Nat
  action : String
  idempotencyKey : String
  delivered : Bool := false
  attemptCount : Nat := 0
  lastErrorCode : Option String := none
  deliveredAt : Option Time := none
  deriving DecidableEq, Repr

/-- The business database. -/
structure MemoirDb where
  archives : Table MemoryArchive.archiveId := Table.empty
  documents : Table MemoryPlaybackDocument.key := Table.empty
  references : List MemorySourceReference := []
  scenes : List MemoryScene := []
  actions : List MemoryAction := []
  snapshots : List MemorySnapshot := []
  runRefs : Table MemoryAgentRunRef.runId := Table.empty
  launchEvents : Table MemoryRuntimeLaunchEvent.key := Table.empty
  compensations : List MemoryRuntimeCompensationEvent := []

/-- An archive that is not deleted. -/
def MemoirDb.liveArchive? (db : MemoirDb) (archiveId : String) : Option MemoryArchive :=
  (db.archives.find? archiveId).filter (·.deletedAt.isNone)

/-! ## Inserting rows -/

/-- Add a document, its number and its identifier being free. -/
def insertDocument (db : MemoirDb) (d : MemoryPlaybackDocument) : Result MemoirDb := do
  require (db.documents.rows.all (fun other => decide (other.documentId ≠ d.documentId)) = true)
    .integrity
  match db.documents.insert? d with
  | none => .error .integrity
  | some documents => pure { db with documents := documents }

def insertScene (db : MemoirDb) (s : MemoryScene) : Result MemoirDb := do
  require (db.scenes.all (fun other => decide (other.sceneId ≠ s.sceneId ∧
    ¬ (other.documentId = s.documentId ∧ other.sceneOrder = s.sceneOrder))) = true) .integrity
  pure { db with scenes := db.scenes ++ [s] }

def insertAction (db : MemoirDb) (a : MemoryAction) : Result MemoirDb := do
  require (db.actions.all (fun other => decide (other.actionId ≠ a.actionId ∧
    ¬ (other.sceneId = a.sceneId ∧ other.actionOrder = a.actionOrder))) = true) .integrity
  pure { db with actions := db.actions ++ [a] }

/-- An integer column; `none` where the value does not fit. -/
def Json.column? : Json → Option Int
  | .int n => some n
  | .bool b => some (if b then 1 else 0)
  | _ => none

def sceneIdOf (scene : List (String × Json)) : String :=
  ((Json.get? "scene_id" scene).bind Json.str?).getD ""

/-- The scenes of a document; the ones without an order take their place in
the list. -/
def insertScenes (documentId : String) : Nat → MemoirDb → List Json → Result MemoirDb
  | _, db, [] => pure db
  | index, db, .obj scene :: scenes =>
    match ((Json.get? "order" scene).getD (.int index)).column? with
    | none => .error .integrity
    | some order => do
      let db' ← insertScene db ⟨sceneIdOf scene, documentId, order⟩
      insertScenes documentId (index + 1) db' scenes
  | _, _, _ :: _ => .error (invalid "TypeError")

/-- The actions of a document; the ones without an order follow the actions
of their scene. -/
def insertActions : List (String × Int) → MemoirDb → List Json → Result MemoirDb
  | _, db, [] => pure db
  | last, db, .obj action :: actions => do
    let sceneId := ((Json.get? "scene_id" action).bind Json.str?).getD ""
    let actionId := ((Json.get? "action_id" action).bind Json.str?).getD ""
    let before := (last.lookup sceneId).getD 0
    let order := ((Json.get? "order" action).bind Json.column?).getD (before + 1)
    let db' ← insertAction db ⟨actionId, sceneId, order⟩
    insertActions ((sceneId, max before order) :: last) db' actions
  | _, _, _ :: _ => .error (invalid "TypeError")

/-! ## The service -/

/-- `FrozenMemoryInput`; the two digests are those of its manifest and of the
envelope made of it, which may be refused. -/
structure FrozenMemoryInput where
  relationshipId : Int
  spaceId : String
  relationshipSegmentNo : Int
  ownerUserIds : Int × Int
  snapshotCutoffAt : Time
  sourceManifest : List (String × Json)
  privacyFilterVersion : String
  manifestHash : String
  payloadDigest : Result String

/-- The identifiers drawn for one archive. -/
structure ArchiveIds where
  archiveId : String
  snapshotId : String
  documentId : String
  coverId : String
  statsId : String
  coverActionId : String
  statsActionId : String

/-- `_SUPERSEDED_REVISION_RETENTION`. -/
def supersededRevisionRetention : Time := seconds (7 * 86400)

/-- The superseded document stays for its days of grace. -/
def MemoryPlaybackDocument.supersede (d : MemoryPlaybackDocument) (now : Time) :
    MemoryPlaybackDocument :=
  { d with isPublished := false, retainUntil := some (now + supersededRevisionRetention) }

namespace MemoryArchiveService

/-- `_existing_archives`: nothing yet, or the same frozen input again. -/
def existingArchives (db : MemoirDb) (frozen : FrozenMemoryInput) (payloadDigest : String) :
    Result Bool :=
  let records := db.archives.rows.filter (fun a => decide (a.spaceId = frozen.spaceId ∧
    a.relationshipSegmentNo = frozen.relationshipSegmentNo))
  let snapshots := db.snapshots.filter (fun s =>
    records.any (fun a => decide (a.archiveId = s.archiveId)))
  let owners := [frozen.ownerUserIds.1, frozen.ownerUserIds.2]
  if records.isEmpty then pure false
  else do
    require (records.length = 2 ∧
        records.all (fun a => decide (a.ownerUserId ∈ owners)) = true ∧
        owners.all (fun o => records.any (fun a => decide (a.ownerUserId = o))) = true ∧
        records.all (fun a => decide (a.relationshipId = frozen.relationshipId)) = true)
      (invalid "MEMORY_ARCHIVE_FROZEN_INPUT_CONFLICT")
    require (snapshots.length = 2 ∧ snapshots.all (fun s => decide (
        s.sourceManifestHash = frozen.manifestHash ∧ s.contentDigest = payloadDigest ∧
        s.privacyFilterVersion = frozen.privacyFilterVersion ∧
        s.snapshotCutoffAt = frozen.snapshotCutoffAt)) = true)
      (invalid "MEMORY_ARCHIVE_FROZEN_INPUT_CONFLICT")
    pure true

/-- The archive of one owner, with its snapshot and its baseline. -/
def createArchive (db : MemoirDb) (frozen : FrozenMemoryInput) (payloadDigest : String)
    (owner partner : Int) (ids : ArchiveIds) : Result MemoirDb := do
  let archive : MemoryArchive := {
    archiveId := ids.archiveId
    relationshipId := frozen.relationshipId
    spaceId := frozen.spaceId
    relationshipSegmentNo := frozen.relationshipSegmentNo
    ownerUserId := owner
    partnerUserId := partner }
  let snapshot : MemorySnapshot := {
    snapshotId := ids.snapshotId
    archiveId := ids.archiveId
    sourceManifest := frozen.sourceManifest
    sourceManifestHash := frozen.manifestHash
    privacyFilterVersion := frozen.privacyFilterVersion
    snapshotCutoffAt := frozen.snapshotCutoffAt
    contentDigest := payloadDigest }
  require (db.archives.rows.all (fun a => decide (¬ (a.spaceId = frozen.spaceId ∧
    a.relationshipSegmentNo = frozen.relationshipSegmentNo ∧ a.ownerUserId = owner))) = true)
    .integrity
  require (db.snapshots.all (fun s => decide (s.snapshotId ≠ ids.snapshotId ∧
    ¬ (s.archiveId = ids.archiveId ∧ s.snapshotVersion = 1))) = true) .integrity
  match db.archives.insert? archive with
  | none => .error .integrity
  | some archives => do
    let db₁ ← insertDocument
      { db with archives := archives, snapshots := db.snapshots ++ [snapshot] }
      { documentId := ids.documentId, archiveId := ids.archiveId, revision := 0,
        isPublished := true }
    let db₂ ← insertScene db₁ ⟨ids.coverId, ids.documentId, 1⟩
    let db₃ ← insertScene db₂ ⟨ids.statsId, ids.documentId, 2⟩
    let db₄ ← insertAction db₃ ⟨ids.coverActionId, ids.coverId, 1⟩
    insertAction db₄ ⟨ids.statsActionId, ids.statsId, 1⟩

/-- `create_archives_for_relationship`. -/
def createArchivesForRelationship (db : MemoirDb) (frozen : FrozenMemoryInput)
    (ids : ArchiveIds × ArchiveIds) : Result MemoirDb := do
  require (frozen.ownerUserIds.1 ≠ frozen.ownerUserIds.2) (invalid "回忆录归档必须属于两个不同用户")
  let payloadDigest ← frozen.payloadDigest
  let existing ← existingArchives db frozen payloadDigest
  if existing then pure db
  else do
    let db₁ ← createArchive db frozen payloadDigest frozen.ownerUserIds.1 frozen.ownerUserIds.2
      ids.1
    createArchive db₁ frozen payloadDigest frozen.ownerUserIds.2 frozen.ownerUserIds.1 ids.2

/-! ## Publication -/

/-- `_validate_document_source_references`, `scenes` being those of the
document. -/
def validateSourceReferences (scenes : List Json) (archive : MemoryArchive)
    (snapshot : Option MemorySnapshot) : Result (List Source) := do
  let sources ← PlaybackDocument.references [] scenes
  if sources = [] then pure []
  else
    match snapshot with
    | none => .error (invalid "MEMORY_SOURCE_REF_NOT_FROZEN")
    | some snapshot => do
      require (snapshot.archiveId = archive.archiveId) (invalid "MEMORY_SOURCE_REF_NOT_FROZEN")
      let allowed ← PlaybackDocument.allowedSources snapshot.sourceManifest
      require (sources.all (fun s => decide (s ∈ allowed)) = true)
        (invalid "MEMORY_SOURCE_REF_NOT_FROZEN")
      pure sources

/-- A publication that has passed the validation. -/
structure Publication where
  archive : MemoryArchive
  body : PlaybackDocument.Body
  sources : List Source

/-- What `publish_playback_document` checks. -/
def checkPublication (text : PyText) (db : MemoirDb) (archiveId : String)
    (expectedGenerationEpoch : Int) (expectedRunId : Option String)
    (snapshot : Option MemorySnapshot) (document : List (String × Json)) :
    Result Publication := do
  let body ← PlaybackDocument.validateComplete text document
  match db.liveArchive? archiveId with
  | none => .error (invalid "回忆录归档不存在或已删除")
  | some archive => do
    require ((archive.generationEpoch : Int) = expectedGenerationEpoch)
      (invalid "GENERATION_SUPERSEDED")
    require (expectedRunId = none ∨ archive.activeRunId = expectedRunId)
      (invalid "MEMORY_RUN_NOT_ACTIVE")
    let sources ← validateSourceReferences body.scenes archive snapshot
    pure ⟨archive, body, sources⟩

/-- Take the published document out of publication. -/
def supersedePrevious (db : MemoirDb) (now : Time) (archive : MemoryArchive) : MemoirDb :=
  match db.documents.find? (archive.archiveId, archive.publishedRevision) with
  | none => db
  | some previous =>
    { db with documents := db.documents.put (previous.supersede now) }

/-- What `publish_playback_document` writes. -/
def writePublication (db : MemoirDb) (now : Time) (p : Publication) (documentId : String) :
    Result MemoirDb := do
  let revision := p.archive.publishedRevision + 1
  let db₁ ← insertDocument (supersedePrevious db now p.archive)
    { documentId := documentId, archiveId := p.archive.archiveId, revision := revision,
      isPublished := true }
  let db₂ ← insertScenes documentId 1 db₁ p.body.scenes
  let db₃ ← insertActions [] db₂ p.body.actions
  pure { db₃ with
    references := db₃.references ++ p.sources.map (fun source =>
      ⟨p.archive.archiveId, documentId, revision, source⟩)
    archives := db₃.archives.put
      { p.archive with publishedRevision := revision, contentStatus := .succeeded } }

/-- `publish_playback_document`. -/
def publishPlaybackDocument (text : PyText) (db : MemoirDb) (now : Time) (archiveId : String)
    (expectedGenerationEpoch : Int) (expectedRunId : Option String)
    (snapshot : Option MemorySnapshot) (document : List (String × Json)) (documentId : String) :
    Result MemoirDb := do
  let p ← checkPublication text db archiveId expectedGenerationEpoch expectedRunId snapshot document
  writePublication db now p documentId

end MemoryArchiveService

end AgentRuntime
