import AgentRuntime.AudioMaintenance
import AgentRuntime.Lib.Interleave

/-!
# Sessions on the audio ledger

Any number of sessions work on the ledger at once: generations reserve jobs
and write them under a lease, a recovery rotates leases, maintenance ends
what was abandoned and marks orphans cleaned, and the runs change meanwhile.
An operation reads first and then updates; between the two, anything the
other sessions do may come. A `Draft` is an operation that has made its read.
`exec` is its update, and `serve_eq` says that an operation with nothing in
between is the one of `MemoirAudioJobsService`.

The updates stand alone: the row locks that some of the reads ask for are
not modelled, nor is the order in which they make the sessions wait.
`row_locks_keep_attempt` says what the lock on the run adds.
-/

namespace AgentRuntime

open Keyed Interleave MemoirAudioJobsService

/-- The writes under a lease, with their arguments. -/
inductive LeasedWrite
  | markSubmitting
  | markSubmitted (providerTaskId : Option String)
  | markProcessing
  | recordObjectKey (objectKey mime : String)
  | recordUpload (durationMs : Int)
  | markPublished
  | markFailed (errorCode : String)
  | markCancelled (errorCode : Option String)
  | markSubmissionUnknown (errorCode : String)
  | settleTtsUsage (usageTextWords : Int)
  | settleMusicUsage (requestedMusicSeconds : Int)
  | settleDefaultMusicUsage
  | renewLease (ttl : Time)
  | rotateLease (owner : LeaseOwner) (ttl : Time)

namespace LeasedWrite

/-- The operation of the service. -/
def service (policy : Option MemoirAudioCostPolicy) (jobId : String) (leaseToken : Nat)
    (now : Time) : LeasedWrite → AudioM MemoirAudioJob
  | .markSubmitting => MemoirAudioJobsService.markSubmitting jobId leaseToken now
  | .markSubmitted taskId => MemoirAudioJobsService.markSubmitted jobId leaseToken taskId now
  | .markProcessing => MemoirAudioJobsService.markProcessing jobId leaseToken now
  | .recordObjectKey key mime =>
    MemoirAudioJobsService.recordObjectKey jobId leaseToken key mime now
  | .recordUpload duration => MemoirAudioJobsService.recordUpload jobId leaseToken duration now
  | .markPublished => MemoirAudioJobsService.markPublished jobId leaseToken now
  | .markFailed code => MemoirAudioJobsService.markFailed jobId leaseToken code now
  | .markCancelled code => MemoirAudioJobsService.markCancelled jobId leaseToken code now
  | .markSubmissionUnknown code =>
    MemoirAudioJobsService.markSubmissionUnknown jobId leaseToken code now
  | .settleTtsUsage words =>
    MemoirAudioJobsService.settleTtsUsage policy jobId leaseToken words now
  | .settleMusicUsage seconds =>
    MemoirAudioJobsService.settleMusicUsage policy jobId leaseToken seconds now
  | .settleDefaultMusicUsage =>
    MemoirAudioJobsService.settleDefaultMusicUsage jobId leaseToken now
  | .renewLease ttl => MemoirAudioJobsService.renewLease jobId leaseToken ttl now
  | .rotateLease owner ttl => MemoirAudioJobsService.rotateLease jobId leaseToken owner ttl now

/-! ## The two halves of a write -/

/-- The states the read and the update ask for. -/
def states : LeasedWrite → List AudioState
  | .markSubmitting => [.reserved, .submitting]
  | .markSubmitted _ => [.submitting, .submitted]
  | .markProcessing => [.submitted, .processing]
  | .markPublished => [.uploaded, .published]
  | .markSubmissionUnknown _ => [.submitting, .submitted]
  | .settleTtsUsage _ | .settleMusicUsage _ => settleStates
  | .settleDefaultMusicUsage => [.reserved, .uploaded]
  | .recordObjectKey _ _ | .recordUpload _ | .markFailed _ | .markCancelled _ | .renewLease _
  | .rotateLease _ _ => activeStates

/-- A lease may be renewed and rotated after its expiry. -/
def checkExpiry : LeasedWrite → Bool
  | .renewLease _ | .rotateLease _ _ => false
  | _ => true

/-- The owner the run is checked for, where it is not the row's. -/
def fenceOwner : LeasedWrite → Option LeaseOwner
  | .rotateLease owner _ => some owner
  | _ => none

/-- What is checked before the row is read. -/
def checkArguments (policy : Option MemoirAudioCostPolicy) (db : AudioDb) :
    LeasedWrite → Result Unit
  | .recordObjectKey key mime => do
    require (key ≠ "") (audioError "MEMOIR_AUDIO_INPUT_INVALID")
    require ("audio/".toList <+: mime.toList) (audioError "MEMOIR_AUDIO_INPUT_INVALID")
  | .recordUpload duration => require (0 < duration) (audioError "MEMOIR_AUDIO_INPUT_INVALID")
  | .markFailed code | .markSubmissionUnknown code =>
    require (code ≠ "") (audioError "MEMOIR_AUDIO_INPUT_INVALID")
  | .settleTtsUsage words => do
    require (0 ≤ words) (audioError "MEMOIR_AUDIO_INPUT_INVALID")
    discard (requirePolicy policy db)
  | .settleMusicUsage seconds => do
    require (0 < seconds) (audioError "MEMOIR_AUDIO_INPUT_INVALID")
    discard (requirePolicy policy db)
  | .renewLease ttl => require (0 < ttl) (audioError "MEMOIR_AUDIO_INPUT_INVALID")
  | .rotateLease owner ttl => do
    require (0 < ttl) (audioError "MEMOIR_AUDIO_INPUT_INVALID")
    require (owner ≠ .named "") (audioError "MEMOIR_AUDIO_INPUT_INVALID")
  | _ => pure ()

/-- What the row decides: `false` where it already is as it should be. -/
def decideOn (row : MemoirAudioJob) : LeasedWrite → Result Bool
  | .markSubmitted taskId => do
    require (row.slot.role = .backgroundMusic → taskId ≠ none ∧ taskId ≠ some "")
      (audioError "MEMOIR_AUDIO_INPUT_INVALID")
    pure true
  | .recordObjectKey key _ =>
    match row.objectKey with
    | some recorded => do
      require (recorded = key) (audioError "MEMOIR_AUDIO_OBJECT_KEY_CONFLICT")
      pure false
    | none => pure true
  | .recordUpload _ => do
    require (row.objectKey ≠ none) (audioError "MEMOIR_AUDIO_INPUT_INVALID")
    pure true
  | .settleDefaultMusicUsage =>
    match row.settledCost with
    | some settled => do
      require (settled = 0) (audioError "MEMOIR_AUDIO_SETTLE_CONFLICT")
      pure false
    | none => pure true
  | _ => pure true

/-- The columns of the update. -/
def values (policy : Option MemoirAudioCostPolicy) (now : Time) (row : MemoirAudioJob) :
    LeasedWrite → MemoirAudioJob
  | .markSubmitting => { row with state := .submitting }
  | .markSubmitted taskId =>
    { row with
      state := .submitted
      providerTaskId := if taskId = some "" then none else taskId }
  | .markProcessing => { row with state := .processing }
  | .recordObjectKey key mime => { row with objectKey := some key, mime := some mime }
  | .recordUpload duration => { row with state := .uploaded, durationMs := some duration }
  | .markPublished => { row with state := .published }
  | .markFailed code => { row with state := .failed, errorCode := some code }
  | .markCancelled code => { row with state := .cancelled, errorCode := code }
  | .markSubmissionUnknown code =>
    { row with state := .submissionUnknown, errorCode := some code }
  | .settleTtsUsage words =>
    { row with
      usageTextWords := some words
      settledCost := policy.map fun p => quantizeHalfUp (p.ttsCost words) }
  | .settleMusicUsage seconds =>
    { row with
      requestedMusicSeconds := some seconds
      settledCost := policy.map fun p => quantizeHalfUp (p.musicCost seconds) }
  | .settleDefaultMusicUsage => { row with settledCost := some 0 }
  | .renewLease ttl => { row with expiresAt := some (now + ttl) }
  | .rotateLease owner ttl =>
    { row with
      leaseToken := row.leaseToken + 1, leaseOwner := owner, expiresAt := some (now + ttl) }

/-- The first half: all the checks, and the row they were made on. -/
def read (policy : Option MemoirAudioCostPolicy) (jobId : String) (leaseToken : Nat) (now : Time)
    (w : LeasedWrite) (db : AudioDb) : Result (MemoirAudioJob × Bool) := do
  w.checkArguments policy db
  let row ← loadForWrite jobId leaseToken w.states now w.checkExpiry w.fenceOwner db
  let writes ← w.decideOn row
  pure (row, writes)

/-- The second half. -/
def update (policy : Option MemoirAudioCostPolicy) (leaseToken : Nat) (now : Time)
    (row : MemoirAudioJob) (w : LeasedWrite) : AudioM MemoirAudioJob :=
  casUpdate row leaseToken w.states now (fun row => w.values policy now row)

end LeasedWrite

namespace AudioM

variable {α β : Type}

theorem read_bind (f : AudioDb → Result α) (g : α → AudioM β) (db : AudioDb) :
    (read f >>= g) db = match f db with
      | .ok a => g a db
      | .error e => (.error e, db) := by
  change AudioM.bind (read f) g db = _
  unfold AudioM.bind read
  cases f db <;> rfl

/-- Two checks in a row are one. -/
theorem read_read (f : AudioDb → Result Unit) (g : AudioDb → Result Unit)
    (k : Unit → AudioM β) :
    (read f >>= fun _ => read g >>= k) = (read (fun db => do f db; g db) >>= k) := by
  funext db
  rw [read_bind f, read_bind fun db => do f db; g db]
  cases f db with
  | error e => rfl
  | ok _ => exact read_bind g k db

/-- A check that decides goes on with what it decides. -/
theorem check_decides (check : Result Unit) (b : Bool) (k : Bool → AudioM β) :
    (read (fun _ => (do check; Pure.pure b : Result Bool)) >>= k)
      = (read (fun _ => check) >>= fun _ => k b) := by
  cases check <;> rfl

end AudioM

namespace LeasedWrite

variable {policy : Option MemoirAudioCostPolicy} {jobId : String} {leaseToken : Nat} {now : Time}
  {db : AudioDb}

/-- A write that has made its checks. -/
def conclude (policy : Option MemoirAudioCostPolicy) (leaseToken : Nat) (now : Time)
    (row : MemoirAudioJob) (w : LeasedWrite) (writes : Bool) : AudioM MemoirAudioJob :=
  if writes then w.update policy leaseToken now row else pure row

/-- A write from its read of the row on. -/
def onRow (policy : Option MemoirAudioCostPolicy) (jobId : String) (leaseToken : Nat)
    (now : Time) (w : LeasedWrite) : AudioM MemoirAudioJob := do
  let row ← AudioM.read
    (loadForWrite jobId leaseToken w.states now w.checkExpiry w.fenceOwner)
  let writes ← AudioM.read fun _ => w.decideOn row
  w.conclude policy leaseToken now row writes

theorem halves_eq (w : LeasedWrite) :
    (match w.read policy jobId leaseToken now db with
      | .ok (row, true) => w.update policy leaseToken now row db
      | .ok (row, false) => (.ok row, db)
      | .error e => (.error e, db)) =
    (AudioM.read (w.checkArguments policy) >>= fun _ => w.onRow policy jobId leaseToken now)
      db := by
  unfold LeasedWrite.read onRow
  rw [AudioM.read_bind]
  cases w.checkArguments policy db with
  | error e => rfl
  | ok _ =>
    dsimp only
    rw [AudioM.read_bind]
    cases loadForWrite jobId leaseToken w.states now w.checkExpiry w.fenceOwner db with
    | error e => rfl
    | ok row =>
      dsimp only
      rw [AudioM.read_bind]
      cases hdecide : w.decideOn row with
      | error e => simp [hdecide, bind, Except.bind]
      | ok writes => cases writes <;> simp [hdecide, bind, Except.bind, pure, Except.pure] <;> rfl

/-- **The halves of a write.** With nothing in between they are the operation
of the service. -/
theorem service_eq (w : LeasedWrite) :
    w.service policy jobId leaseToken now db =
      match w.read policy jobId leaseToken now db with
      | .ok (row, true) => w.update policy leaseToken now row db
      | .ok (row, false) => (.ok row, db)
      | .error e => (.error e, db) := by
  rw [halves_eq]
  cases w with
  | markSubmitting => rfl
  | markProcessing => rfl
  | markPublished => rfl
  | markCancelled code => rfl
  | markFailed code => rfl
  | markSubmissionUnknown code => rfl
  | renewLease ttl => rfl
  | rotateLease owner ttl =>
    exact congrFun (AudioM.read_read _ _ fun _ =>
      (LeasedWrite.rotateLease owner ttl).onRow policy jobId leaseToken now) db
  | settleTtsUsage words =>
    refine Eq.trans ?_ (congrFun (AudioM.read_read _ _ fun _ =>
      (LeasedWrite.settleTtsUsage words).onRow policy jobId leaseToken now) db)
    cases policy <;> rfl
  | settleMusicUsage seconds =>
    refine Eq.trans ?_ (congrFun (AudioM.read_read _ _ fun _ =>
      (LeasedWrite.settleMusicUsage seconds).onRow policy jobId leaseToken now) db)
    cases policy <;> rfl
  | markSubmitted taskId =>
    show MemoirAudioJobsService.markSubmitted jobId leaseToken taskId now db
      = (LeasedWrite.markSubmitted taskId).onRow policy jobId leaseToken now db
    unfold MemoirAudioJobsService.markSubmitted onRow
    refine congrFun (congrArg _ (funext fun row => ?_)) db
    exact (AudioM.check_decides _ true
      (conclude policy leaseToken now row (.markSubmitted taskId))).symm
  | recordObjectKey key mime =>
    refine Eq.trans ?_ (congrFun (AudioM.read_read _ _ fun _ =>
      (LeasedWrite.recordObjectKey key mime).onRow policy jobId leaseToken now) db)
    show MemoirAudioJobsService.recordObjectKey jobId leaseToken key mime now db = _
    unfold MemoirAudioJobsService.recordObjectKey onRow
    refine congrFun (congrArg _ (funext fun _ => congrArg _ (funext fun _ =>
      congrArg _ (funext fun row => ?_)))) db
    show _ = (AudioM.read fun _ => decideOn row (.recordObjectKey key mime)) >>= _
    unfold decideOn
    cases row.objectKey with
    | some recorded =>
      exact (AudioM.check_decides _ false
        (conclude policy leaseToken now row (.recordObjectKey key mime))).symm
    | none => rfl
  | recordUpload duration =>
    show MemoirAudioJobsService.recordUpload jobId leaseToken duration now db = _
    unfold MemoirAudioJobsService.recordUpload onRow
    refine congrFun (congrArg _ (funext fun _ => congrArg _ (funext fun row => ?_))) db
    exact (AudioM.check_decides _ true
      (conclude policy leaseToken now row (.recordUpload duration))).symm
  | settleDefaultMusicUsage =>
    show MemoirAudioJobsService.settleDefaultMusicUsage jobId leaseToken now db
      = LeasedWrite.settleDefaultMusicUsage.onRow policy jobId leaseToken now db
    unfold MemoirAudioJobsService.settleDefaultMusicUsage onRow
    refine congrFun (congrArg _ (funext fun row => ?_)) db
    show _ = (AudioM.read fun _ => decideOn row .settleDefaultMusicUsage) >>= _
    unfold decideOn
    cases row.settledCost with
    | some settled =>
      exact (AudioM.check_decides _ false
        (conclude policy leaseToken now row .settleDefaultMusicUsage)).symm
    | none => rfl

end LeasedWrite

/-! ## Reads and updates -/

/-- What other services do to a run. -/
inductive RunChange
  | claimed
  | cancelRequested (moment : Time)
  | privacy (state : PrivacyState)

def RunChange.apply (run : AgentRun) : RunChange → AgentRun
  | .claimed => { run with executionAttempt := run.executionAttempt + 1 }
  | .cancelRequested moment => { run with cancelRequestedAt := some moment }
  | .privacy state => { run with privacyState := state }

/-- What a session is asked for. -/
inductive AudioRequest
  | reserve (policy : Option MemoirAudioCostPolicy) (r : MemoirAudioJobReservation) (now : Time)
  | leased (policy : Option MemoirAudioCostPolicy) (w : LeasedWrite) (jobId : String)
      (leaseToken : Nat) (now : Time)
  | markCleaned (jobId : String) (now : Time)
  | failKeyed (cutoff : Int)
  | failKeyless (cutoff : Int)
  | changeRun (runId : String) (change : RunChange)

/-- The statement a session runs next, with what it has read. -/
inductive Draft
  | leased (policy : Option MemoirAudioCostPolicy) (w : LeasedWrite) (leaseToken : Nat)
      (read : MemoirAudioJob) (now : Time)
  | retry (policy : Option MemoirAudioCostPolicy) (r : MemoirAudioJobReservation)
      (read : MemoirAudioJob) (now : Time)
  | insert (policy : Option MemoirAudioCostPolicy) (r : MemoirAudioJobReservation) (now : Time)
      (again : Bool)
  | clean (read : MemoirAudioJob) (now : Time)
  | failKeyed (cutoff : Int)
  | failKeyless (cutoff : Int)
  | changeRun (runId : String) (change : RunChange)
  | done

/-- The states a reservation may take over. -/
def retryStates : List AudioState := [.failed, .cancelled, .cleaned]

namespace AudioSessions

/-- Where `_reserve_existing` goes with the row it was given. -/
def onExisting (policy : Option MemoirAudioCostPolicy) (r : MemoirAudioJobReservation)
    (now : Time) (existing : MemoirAudioJob) : Draft :=
  if existing.state ∈ retryStates then .retry policy r existing now else .done

/-- The read of a request; nothing follows where it refuses. -/
def request (db : AudioDb) : AudioRequest → Option Draft
  | .reserve policy r now =>
    match (do validateReservation r; checkSlot r db : Result Unit) with
    | .error _ => none
    | .ok () =>
      match findJob r.slot db with
      | some existing => some (onExisting policy r now existing)
      | none => some (.insert policy r now true)
  | .leased policy w jobId leaseToken now =>
    match w.read policy jobId leaseToken now db with
    | .ok (row, true) => some (.leased policy w leaseToken row now)
    | _ => none
  | .markCleaned jobId now =>
    match db.jobs.find? jobId with
    | none => none
    | some job => if job.state ∈ orphanStates then some (.clean job now) else none
  | .failKeyed cutoff => some (.failKeyed cutoff)
  | .failKeyless cutoff => some (.failKeyless cutoff)
  | .changeRun runId change => some (.changeRun runId change)

/-- The row of a new slot, in its savepoint: both the id and the slot are unique. -/
def insertJob (policy : Option MemoirAudioCostPolicy) (r : MemoirAudioJobReservation)
    (now : Time) : AudioM ReservationOutcome :=
  AudioM.savepoint fun db =>
    match createJob policy r now db with
    | (.ok outcome, db') =>
      match findJob r.slot db with
      | none => (.ok outcome, db')
      | some _ => (.error .integrity, db')
    | result => result

/-- `job.state = STATE_CLEANED`, as the flush sends it: by the primary key alone. -/
def flushCleaned (read : MemoirAudioJob) (now : Time) (db : AudioDb) : AudioDb :=
  match db.jobs.find? read.jobId with
  | none => db
  | some row => db.putJob { row with state := .cleaned, updatedAt := now }

def changeRun (runId : String) (change : RunChange) (db : AudioDb) : AudioDb :=
  match db.runs.find? runId with
  | none => db
  | some run => { db with runs := db.runs.put (change.apply run) }

/-- The update of a session, and what is left of it. -/
def exec (db : AudioDb) : Draft → AudioDb × Draft
  | .leased policy w leaseToken read now => ((w.update policy leaseToken now read db).2, .done)
  | .retry policy r read now => ((reserveExisting policy read r now db).2, .done)
  | .insert policy r now again =>
    match insertJob policy r now db with
    | (.error .integrity, db') =>
      match findJob r.slot db' with
      | some winner => (db', onExisting policy r now winner)
      | none => (db', if again then .insert policy r now false else .done)
    | (_, db') => (db', .done)
  | .clean read now => (flushCleaned read now db, .done)
  | .failKeyed cutoff => (failAbandonedKeyedJobs cutoff db, .done)
  | .failKeyless cutoff => (failAbandonedKeylessDefaultJobs cutoff db, .done)
  | .changeRun runId change => (changeRun runId change db, .done)
  | .done => (db, .done)

/-- The sessions on the ledger. -/
def ledger : Program AudioDb Draft AudioRequest where
  wait db _ := db
  call := request
  exec := exec

/-! ## With nothing in between -/

theorem savepoint_read {α : Type} (f : AudioDb → Result α) :
    AudioM.savepoint (AudioM.read f) = AudioM.read f := by
  funext db
  unfold AudioM.savepoint AudioM.read
  cases f db <;> rfl

theorem reserveExisting_refused {policy : Option MemoirAudioCostPolicy}
    {r : MemoirAudioJobReservation} {now : Time} {existing : MemoirAudioJob} (db : AudioDb)
    (h : existing.state ∉ retryStates) : (reserveExisting policy existing r now db).2 = db := by
  unfold reserveExisting
  split
  · rfl
  split
  · rfl
  split
  · rfl
  next hunknown hsuccess hactive =>
    cases hstate : existing.state <;>
      simp [hstate, retryStates, successStates, activeStates] at h hunknown hsuccess hactive

theorem insertJob_free {policy : Option MemoirAudioCostPolicy} {r : MemoirAudioJobReservation}
    {now : Time} {db : AudioDb} (h : findJob r.slot db = none) :
    insertJob policy r now db = AudioM.savepoint (createJob policy r now) db := by
  unfold insertJob AudioM.savepoint
  simp only [h]
  rcases createJob policy r now db with ⟨e | outcome, db'⟩ <;> rfl

/-- A reservation of a free slot inserts its row or leaves the tables alone. -/
theorem reserveNew_free {policy : Option MemoirAudioCostPolicy} {r : MemoirAudioJobReservation}
    {now : Time} {db : AudioDb} (h : findJob r.slot db = none) (again : Bool) :
    (reserveNew policy r now 2 db).2 = (exec db (.insert policy r now again)).1 := by
  have hatomic := AudioM.atomic_savepoint (createJob policy r now) db
  have hone : (reserveNew policy r now 1 db).2
      = (AudioM.savepoint (createJob policy r now) db).2 := by
    unfold reserveNew
    rcases hcreate : AudioM.savepoint (createJob policy r now) db with ⟨e | outcome, db'⟩
    · rw [hatomic e db' hcreate]
      cases e with
      | integrity => simp only [h, if_true]
      | _ => rfl
    · rfl
  unfold reserveNew
  simp only [exec, insertJob_free h]
  rcases hcreate : AudioM.savepoint (createJob policy r now) db with ⟨e | outcome, db'⟩
  · rw [hatomic e db' hcreate]
    cases e with
    | integrity =>
      simp only [h]
      rw [if_neg (by decide), hone, hcreate, hatomic _ db' hcreate]
    | _ => rfl
  · rfl

/-- The tables after an operation of the service. -/
def serve (db : AudioDb) : AudioRequest → AudioDb
  | .reserve policy r now => (reserveJob policy r now db).2
  | .leased policy w jobId leaseToken now => (w.service policy jobId leaseToken now db).2
  | .markCleaned jobId now => (markCleaned jobId now db).2
  | .failKeyed cutoff => failAbandonedKeyedJobs cutoff db
  | .failKeyless cutoff => failAbandonedKeylessDefaultJobs cutoff db
  | .changeRun runId change => changeRun runId change db

/-- **A session alone.** A read and its update, with nothing in between, are
the operation of the service. -/
theorem serve_eq (db : AudioDb) (q : AudioRequest) :
    serve db q = match request db q with
      | none => db
      | some c => (exec db c).1 := by
  cases q with
  | reserve policy r now =>
    unfold serve request reserveJob
    dsimp only
    rw [AudioM.read_bind]
    cases validateReservation r with
    | error e => rfl
    | ok _ =>
      dsimp only
      rw [savepoint_read]
      refine Eq.trans (congrArg Prod.snd (AudioM.read_bind (checkSlot r) _ db)) ?_
      cases checkSlot r db with
      | error e => rfl
      | ok _ =>
        simp only [bind, Except.bind]
        cases hfound : findJob r.slot db with
        | some existing =>
          dsimp only
          unfold onExisting
          split
          · rfl
          next hstate => exact reserveExisting_refused db hstate
        | none => exact reserveNew_free hfound true
  | leased policy w jobId leaseToken now =>
    unfold serve request
    dsimp only
    rw [LeasedWrite.service_eq]
    rcases w.read policy jobId leaseToken now db with e | ⟨row, writes⟩
    · rfl
    · cases writes <;> rfl
  | markCleaned jobId now =>
    unfold serve request markCleaned
    dsimp only
    cases hfind : db.jobs.find? jobId with
    | none => rfl
    | some job =>
      dsimp only
      split
      · have hself : db.jobs.find? job.jobId = some job := by
          rw [Table.key_of_find? hfind]
          exact hfind
        simp only [exec, flushCleaned, hself]
      · rfl
  | failKeyed cutoff => rfl
  | failKeyless cutoff => rfl
  | changeRun runId change => rfl

end AudioSessions

end AgentRuntime
