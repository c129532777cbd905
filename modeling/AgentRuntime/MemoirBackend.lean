import AgentRuntime.LaunchMoves

/-!
# The memoir backend

The operations of the business side as steps of one system. A step is an
operation and the time that has passed since the one before, so the clock
never goes back; it commits what the operation returns, and an operation that
raises changes nothing. Two things are recorded beside the database: the
sources whose deletion has been committed, and the calls of `start_held`,
which a rollback does not take back.
-/

namespace AgentRuntime

open Keyed Runs

/-- The operations of the backend. -/
inductive BackendOp
  | createArchives (frozen : FrozenMemoryInput) (ids : ArchiveIds × ArchiveIds)
  | publish (archiveId : String) (generationEpoch : Int) (runId : Option String)
      (snapshotId : Option String) (document : List (String × Json)) (documentId : String)
  | purgeExpired
  | invalidateDeletedSource (source : Source)
  | requestArchivePrivacyPurge (archiveId : String)
  | enqueue (archiveId eventId : String)
  | deliver (g : RuntimeGateway) (eventId newEventId : String)
  | deliverPending (g : RuntimeGateway) (limit : Nat) (newEventId : String → String)
  | reconcilePendingStart (g : RuntimeGateway)
  | reconcileOrphanedCreate (g : RuntimeGateway) (newEventId : String → String)
  | callback (payload : List (String × Json))

structure Backend where
  db : MemoirDb := {}
  now : Time := 0
  deletedSources : List Source := []
  starts : List StartCall := []

/-- What holds of the value when there is one. -/
def IfOk {α : Type} (r : Result α) (P : α → Prop) : Prop := ∀ a, r = .ok a → P a

instance {α : Type} (r : Result α) (P : α → Prop) [DecidablePred P] : Decidable (IfOk r P) :=
  match r with
  | .ok a => decidable_of_iff (P a) ⟨fun h b hb => by cases hb; exact h, fun h => h a rfl⟩
  | .error _ => .isTrue fun _ h => nomatch h

/-- The snapshot a publication is checked against. -/
def MemoirDb.snapshot? (db : MemoirDb) (snapshotId : Option String) : Option MemorySnapshot :=
  snapshotId.bind fun id => db.snapshots.find? (fun s => decide (s.snapshotId = id))

namespace BackendOp

/-- What an operation does to the database at time `now`, and the starts it
calls. -/
def perform (text : PyText) (db : MemoirDb) (now : Time) :
    BackendOp → Result MemoirDb × List StartCall
  | createArchives frozen ids =>
    (MemoryArchiveService.createArchivesForRelationship db frozen ids, [])
  | publish archiveId generationEpoch runId snapshotId document documentId =>
    (MemoryArchiveService.publishPlaybackDocument text db now archiveId generationEpoch runId
      (db.snapshot? snapshotId) document documentId, [])
  | purgeExpired => (pure (MemoryRevisionGcService.purgeExpired db now), [])
  | invalidateDeletedSource source =>
    (MemoryDeletionCompensationService.invalidateDeletedSource db now source, [])
  | requestArchivePrivacyPurge archiveId =>
    (MemoryDeletionCompensationService.requestArchivePrivacyPurge db now archiveId, [])
  | enqueue archiveId eventId =>
    (MemoryRuntimeLaunchService.enqueue db now archiveId eventId, [])
  | deliver g eventId newEventId =>
    MemoryRuntimeLaunchService.deliverNext g db db now (fun _ => newEventId) eventId
  | deliverPending g limit newEventId =>
    MemoryRuntimeLaunchService.deliverPending g db now limit newEventId
  | reconcilePendingStart g => MemoryRuntimeLaunchService.reconcilePendingStart g db now
  | reconcileOrphanedCreate g newEventId =>
    (MemoryRuntimeLaunchService.reconcileOrphanedCreate g db now newEventId, [])
  | callback payload => (pure (deliverCallback db ⟨now, payload⟩), [])

/-- The source an operation deletes. -/
def deletes : BackendOp → List Source
  | invalidateDeletedSource source => [source]
  | _ => []

end BackendOp

/-- The operations that launch a run or hear from it. -/
def BackendOp.Launching : BackendOp → Prop
  | enqueue .. => True
  | deliver .. => True
  | deliverPending .. => True
  | reconcilePendingStart .. => True
  | reconcileOrphanedCreate .. => True
  | callback .. => True
  | _ => False

theorem BackendOp.Launching.launches {op : BackendOp} (h : op.Launching) (text : PyText)
    (db : MemoirDb) (now : Time) : Launches db (op.perform text db now) := by
  cases op with
  | enqueue archiveId eventId =>
    show Launches db (MemoryRuntimeLaunchService.enqueue db now archiveId eventId, [])
    refine .silent fun db' hdone => ?_
    exact MemoryRuntimeLaunchService.enqueue_moves hdone
  | deliver g eventId newEventId =>
    show Launches db
      (MemoryRuntimeLaunchService.deliverNext g db db now (fun _ => newEventId) eventId)
    exact MemoryRuntimeLaunchService.deliverNext_moves
  | deliverPending g limit newEventId =>
    show Launches db (MemoryRuntimeLaunchService.deliverPending g db now limit newEventId)
    exact MemoryRuntimeLaunchService.deliverPending_moves
  | reconcilePendingStart g =>
    show Launches db (MemoryRuntimeLaunchService.reconcilePendingStart g db now)
    exact MemoryRuntimeLaunchService.reconcilePendingStart_moves
  | reconcileOrphanedCreate g newEventId =>
    show Launches db
      (MemoryRuntimeLaunchService.reconcileOrphanedCreate g db now newEventId, [])
    refine .silent fun db' hdone => ?_
    exact MemoryRuntimeLaunchService.reconcileOrphanedCreate_moves hdone
  | callback payload =>
    show Launches db (pure (deliverCallback db ⟨now, payload⟩), [])
    exact .silent fun _ hdone => by cases hdone; exact deliverCallback_moves db _
  | _ => exact h.elim

/-- One step: `e.1` is the time since the step before. -/
def Backend.step (text : PyText) (s : Backend) (e : Time × BackendOp) : Backend :=
  let now := s.now + e.1
  let done := e.2.perform text s.db now
  match done.1 with
  | .ok db =>
    { db := db
      now := now
      deletedSources := s.deletedSources ++ e.2.deletes
      starts := s.starts ++ done.2 }
  | .error _ => { s with now := now, starts := s.starts ++ done.2 }

/-- A step commits the operation, or leaves the database as it was. -/
theorem Backend.step_cases (text : PyText) (s : Backend) (e : Time × BackendOp) :
    (∃ db', (e.2.perform text s.db (s.now + e.1)).1 = .ok db' ∧ (s.step text e).db = db' ∧
      (s.step text e).deletedSources = s.deletedSources ++ e.2.deletes) ∨
    (∃ err, (e.2.perform text s.db (s.now + e.1)).1 = .error err ∧ (s.step text e).db = s.db ∧
      (s.step text e).deletedSources = s.deletedSources) := by
  unfold Backend.step
  dsimp only
  cases h : (e.2.perform text s.db (s.now + e.1)).1 with
  | ok db' => exact Or.inl ⟨db', rfl, rfl, rfl⟩
  | error err => exact Or.inr ⟨err, rfl, rfl, rfl⟩

end AgentRuntime
