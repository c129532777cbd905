import AgentRuntime.MemoryArchive

/-!
# Deleting a source, deleting an archive

`MemoryRevisionGcService.purge_expired` collects superseded revisions whose
days of grace are over. `invalidate_deleted_source` takes the published
revisions that refer to a deleted source out of publication and puts the
baseline back; `request_archive_privacy_purge` deletes an archive.

The sessions of the backend do not flush before a query
(`autoflush=False`). So the collection that `invalidate_deleted_source` ends
with selects by what is stored: the revision it has just withdrawn is not
among the documents it finds, and a baseline that was due before and has just
been put back is.
-/

namespace AgentRuntime

open Keyed

/-! ## Collecting revisions -/

namespace MemoryPlaybackDocument

/-- Not published, and its days of grace are over. -/
def Expired (now : Time) (d : MemoryPlaybackDocument) : Prop :=
  d.isPublished = false ∧ ∃ t ∈ d.retainUntil, t ≤ now

instance (now : Time) (d : MemoryPlaybackDocument) : Decidable (d.Expired now) := by
  unfold Expired; infer_instance

end MemoryPlaybackDocument

/-- The identifiers of the documents a collection selects. -/
def expiredDocuments (db : MemoirDb) (now : Time) : List String :=
  (db.documents.rows.filter (fun d => decide (d.Expired now))).map (·.documentId)

/-- Delete documents with all that belongs to them. -/
def dropDocuments (db : MemoirDb) (documentIds : List String) : MemoirDb :=
  let sceneIds := (db.scenes.filter (fun s => decide (s.documentId ∈ documentIds))).map (·.sceneId)
  { db with
    documents := db.documents.filter (fun d => decide (d.documentId ∉ documentIds))
    references := db.references.filter (fun r => decide (r.documentId ∉ documentIds))
    scenes := db.scenes.filter (fun s => decide (s.documentId ∉ documentIds))
    actions := db.actions.filter (fun a => decide (a.sceneId ∉ sceneIds)) }

namespace MemoryRevisionGcService

/-- `purge_expired`. -/
def purgeExpired (db : MemoirDb) (now : Time) : MemoirDb :=
  dropDocuments db (expiredDocuments db now)

end MemoryRevisionGcService

/-! ## Compensation events -/

/-- `_enqueue_event`, and whether there is a new one. -/
def enqueueCompensation (db : MemoirDb) (event : MemoryRuntimeCompensationEvent) :
    MemoirDb × Bool :=
  if db.compensations.any (fun e => decide (e.archiveId = event.archiveId ∧
      e.runId = event.runId ∧ e.generationEpoch = event.generationEpoch ∧
      e.action = event.action)) then (db, false)
  else ({ db with compensations := db.compensations ++ [event] }, true)

/-- `_purge_key` and `_cancel_key`. -/
def compensationKey (action archiveId runId : String) (generationEpoch : Nat) : String :=
  s!"memory:{action}:{archiveId}:{runId}:{generationEpoch}"

/-! ## Deleting a source -/

/-- `find_published_revisions_by_source`: archive and revision. The order of
the matches does not matter: each of them is about an archive of its own. -/
def findPublishedRevisionsBySource (db : MemoirDb) (source : Source) :
    Result (List (String × Nat)) := do
  require (source.sourceType ∈ ["diary", "completed_bet"]) (invalid "MEMORY_SOURCE_REF_INVALID")
  require (source.sourceId ≠ "") (invalid "MEMORY_SOURCE_REF_INVALID")
  pure ((db.references.filter (fun r => decide (r.source = source ∧
    ((db.liveArchive? r.archiveId).map (·.publishedRevision)) = some r.revision))).map
      (fun r => (r.archiveId, r.revision)))

namespace MemoryArchive

/-- The pointer goes back to the baseline, and the generation on. -/
def invalidate (archive : MemoryArchive) : MemoryArchive :=
  { archive with
    generationEpoch := archive.generationEpoch + 1
    activeRunId := none
    publishedRevision := 0
    contentStatus := .baseline }

/-- The archive is deleted, and the generation goes on. -/
def delete (archive : MemoryArchive) (now : Time) : MemoryArchive :=
  { archive with
    deletedAt := some now
    generationEpoch := archive.generationEpoch + 1
    activeRunId := none
    contentStatus := .cancelled }

end MemoryArchive

namespace MemoryPlaybackDocument

/-- The baseline is published again. -/
def restore (d : MemoryPlaybackDocument) : MemoryPlaybackDocument :=
  { d with isPublished := true, retainUntil := none }

/-- The revision is withdrawn, with no days of grace. -/
def withdraw (d : MemoryPlaybackDocument) (now : Time) : MemoryPlaybackDocument :=
  { d with isPublished := false, retainUntil := some now }

end MemoryPlaybackDocument

namespace MemoryAgentRunRef

/-- The purge key a reference has, or gets. -/
def purgeKey (ref : MemoryAgentRunRef) (archiveId : String) : String :=
  match ref.privacyPurgeIdempotencyKey with
  | some key => if key = "" then compensationKey "purge" archiveId ref.runId ref.generationEpoch
    else key
  | none => compensationKey "purge" archiveId ref.runId ref.generationEpoch

/-- The purge of the run is requested. -/
def requestPurge (ref : MemoryAgentRunRef) (now : Time) (archiveId : String) : MemoryAgentRunRef :=
  { ref with
    privacyPurgeIdempotencyKey := some (purgeKey ref archiveId)
    purgeState := "requested"
    updatedAt := now }

end MemoryAgentRunRef

namespace MemoryDeletionCompensationService

/-- Put the baseline back and withdraw the current revision with its
references. -/
def withdrawRevision (db : MemoirDb) (now : Time) (baseline current : MemoryPlaybackDocument) :
    MemoirDb :=
  let db₁ := { db with documents := db.documents.put baseline.restore }
  if current.documentId = baseline.documentId then db₁
  else { db₁ with
    documents := db₁.documents.put (current.withdraw now)
    references := db₁.references.filter (fun r => decide (r.documentId ≠ current.documentId)) }

/-- Register the cancellation of the run that was active. -/
def cancelPrior (db : MemoirDb) (archive : MemoryArchive) : MemoirDb :=
  match archive.activeRunId with
  | none => db
  | some runId =>
    if runId = "" then db
    else (enqueueCompensation db {
      archiveId := archive.archiveId
      runId := runId
      generationEpoch := archive.generationEpoch + 1
      action := "cancel"
      idempotencyKey := compensationKey "cancel" archive.archiveId runId
        (archive.generationEpoch + 1) }).1

/-- One match of `invalidate_deleted_source`, and whether it was carried
out. -/
def invalidateMatch (db : MemoirDb) (now : Time) (found : String × Nat) : MemoirDb × Bool :=
  match db.liveArchive? found.1 with
  | none => (db, false)
  | some archive =>
    if archive.publishedRevision ≠ found.2 then (db, false)
    else
      match db.documents.find? (found.1, 0), db.documents.find? found with
      | some baseline, some current =>
        let db₁ := withdrawRevision { db with archives := db.archives.put archive.invalidate } now
          baseline current
        let db₂ := { db₁ with
          snapshots := db₁.snapshots.filter (fun s => decide (s.archiveId ≠ found.1)) }
        (cancelPrior db₂ archive, true)
      | _, _ => (db, false)

/-- The loop over the matches, and whether any was carried out. -/
def invalidateMatches (now : Time) : MemoirDb → List (String × Nat) → MemoirDb × Bool
  | db, [] => (db, false)
  | db, found :: rest =>
    let one := invalidateMatch db now found
    let others := invalidateMatches now one.1 rest
    (others.1, one.2 || others.2)

/-- `invalidate_deleted_source`. -/
def invalidateDeletedSource (db : MemoirDb) (now : Time) (source : Source) : Result MemoirDb := do
  let found ← findPublishedRevisionsBySource db source
  let withdrawn := invalidateMatches now db found
  -- The collection sees the stored rows, not the ones written above.
  pure (if withdrawn.2 then dropDocuments withdrawn.1 (expiredDocuments db now) else withdrawn.1)

/-! ## Deleting an archive -/

/-- The runs of the archive, one after the other. -/
def requestPurges (now : Time) (archiveId : String) :
    MemoirDb → List MemoryAgentRunRef → MemoirDb
  | db, [] => db
  | db, ref :: rest =>
    if ref.purgeState = "purged" then requestPurges now archiveId db rest
    else
      let requested := ref.requestPurge now archiveId
      let db₁ := { db with runRefs := db.runRefs.put requested }
      requestPurges now archiveId (enqueueCompensation db₁ {
        archiveId := archiveId
        runId := ref.runId
        generationEpoch := ref.generationEpoch
        action := "privacy_purge"
        idempotencyKey := ref.purgeKey archiveId }).1 rest

/-- `request_archive_privacy_purge`. -/
def requestArchivePrivacyPurge (db : MemoirDb) (now : Time) (archiveId : String) :
    Result MemoirDb :=
  match db.archives.find? archiveId with
  | none => .error (invalid "MEMORY_ARCHIVE_UNAVAILABLE")
  | some archive =>
    if archive.deletedAt.isSome then pure db
    else
      pure (requestPurges now archiveId
        { db with archives := db.archives.put (archive.delete now) }
        (db.runRefs.rows.filter (fun ref => decide (ref.archiveId = archiveId))))

end MemoryDeletionCompensationService

end AgentRuntime
