import Mathlib.Data.Rat.Floor
import AgentRuntime.Model

/-!
# The audio ledger

`MemoirAudioJobsService` and its two tables, `memoir_audio_jobs` and
`memoir_audio_run_budgets`. A job is the row of one slot: a scene's
narration, one of its segments, or the background music of a work. Before
anything is paid for, `reserveJob` takes the slot and books the estimated
cost against the run's budget; every later write goes through
`_load_for_write` and `_cas_update`, which check the run, the lease token,
the expiry and the state.

An operation is an `AudioM`: it returns a value or an error, and in both
cases the tables as it leaves them. `savepoint` is `begin_nested`: what the
statements inside have written is undone when one of them raises.

Mirroring notes:
- `lease_owner` is a string in the source. `audio:{run_id}:attempt-{N}` is
  `LeaseOwner.audio`, any other text `LeaseOwner.named`.
- Amounts are rational numbers; both roundings are to six decimals.
- An error keeps its code. The text beside it is only logged.
- A role is one of the three of `ALL_ROLES` by its type.
-/

namespace AgentRuntime

open Keyed

/-- `memoir_audio_jobs.role`. -/
inductive AudioRole
  | narration | backgroundMusic | segment
  deriving DecidableEq, Repr

/-- `memoir_audio_jobs.state`. -/
inductive AudioState
  | reserved | submitting | submitted | processing | uploaded | published
  | failed | cancelled | submissionUnknown | cleaned
  deriving DecidableEq, Repr

/-- `_ACTIVE_STATES`. -/
def activeStates : List AudioState := [.reserved, .submitting, .submitted, .processing]

/-- `_SUCCESS_STATES`. -/
def successStates : List AudioState := [.uploaded, .published]

/-- `_ORPHAN_STATES`. -/
def orphanStates : List AudioState := [.uploaded, .failed, .cancelled, .submissionUnknown]

/-- `WORK_SCENE_ID`. -/
def workSceneId : String := "__work__"

/-- `NO_SEGMENT_INDEX`. -/
def noSegmentIndex : Int := -1

/-- The columns of `uq_memoir_audio_job_slot`. -/
structure AudioSlot where
  runId : String
  generationEpoch : Int
  packageVersion : String
  role : AudioRole
  sceneId : String
  segmentIndex : Int := noSegmentIndex
  inputHmac : String
  deriving DecidableEq, Repr

/-- `memoir_audio_jobs.lease_owner`. -/
inductive LeaseOwner
  | audio (runId : String) (attempt : Nat)
  | named (name : String)
  deriving DecidableEq, Repr

/-- `_parse_lease_owner_attempt`. -/
def LeaseOwner.attemptOf (runId : String) : LeaseOwner → Option Nat
  | .audio ownerRun attempt => if ownerRun = runId then some attempt else none
  | .named _ => none

structure MemoirAudioJob where
  jobId : String
  businessId : String
  slot : AudioSlot
  attempt : Nat := 1
  state : AudioState := .reserved
  providerTaskId : Option String := none
  objectKey : Option String := none
  mime : Option String := none
  durationMs : Option Int := none
  reservedCost : Rat := 0
  settledCost : Option Rat := none
  currency : String
  usageTextWords : Option Int := none
  requestedMusicSeconds : Option Int := none
  leaseOwner : LeaseOwner
  leaseToken : Nat := 1
  expiresAt : Option Time := none
  errorCode : Option String := none
  updatedAt : Time

structure MemoirAudioRunBudget where
  runId : String
  currency : String
  reservedTotalCost : Rat := 0

structure AudioDb where
  runs : Table AgentRun.runId := .empty
  jobs : Table MemoirAudioJob.jobId := .empty
  budgets : Table MemoirAudioRunBudget.runId := .empty

def AudioDb.putJob (db : AudioDb) (job : MemoirAudioJob) : AudioDb :=
  { db with jobs := db.jobs.put job }

def audioError (code : String) : ServiceError := .value code

/-! ## Prices -/

/-- The billing policy, as `__post_init__` accepts it. -/
structure MemoirAudioCostPolicy where
  currency : String
  ttsPricePer1000TextWords : Rat
  musicPricePerSecond : Rat
  maxCostPerRun : Rat
  currency_ne : currency ≠ ""
  tts_nonneg : 0 ≤ ttsPricePer1000TextWords
  music_nonneg : 0 ≤ musicPricePerSecond
  max_pos : 0 < maxCostPerRun

/-- `quantize(_COST_EXPONENT, ROUND_CEILING)`. -/
def quantizeCeiling (cost : Rat) : Rat := ⌈cost * 1000000⌉ / 1000000

/-- `quantize(_COST_EXPONENT, ROUND_HALF_UP)` of an amount that is not negative. -/
def quantizeHalfUp (cost : Rat) : Rat := ⌊cost * 1000000 + 1 / 2⌋ / 1000000

/-- What `words` text words cost, before rounding. -/
def MemoirAudioCostPolicy.ttsCost (policy : MemoirAudioCostPolicy) (words : Int) : Rat :=
  words * policy.ttsPricePer1000TextWords / 1000

def MemoirAudioCostPolicy.musicCost (policy : MemoirAudioCostPolicy) (seconds : Int) : Rat :=
  seconds * policy.musicPricePerSecond

/-- `estimate_tts_cost`, of a text of `length` characters. -/
def estimateTtsCost (length : Nat) (policy : MemoirAudioCostPolicy) : Result Rat := do
  require (length ≠ 0) (audioError "MEMOIR_AUDIO_INPUT_INVALID")
  pure (quantizeCeiling (policy.ttsCost length))

/-- `estimate_music_cost`. -/
def estimateMusicCost (seconds : Int) (policy : MemoirAudioCostPolicy) : Result Rat := do
  require (0 < seconds) (audioError "MEMOIR_AUDIO_INPUT_INVALID")
  pure (quantizeCeiling (policy.musicCost seconds))

/-! ## Operations on the tables -/

/-- An operation of the service, inside the session's transaction. -/
def AudioM (α : Type) := AudioDb → Except ServiceError α × AudioDb

namespace AudioM

variable {α β : Type}

def pure (a : α) : AudioM α := fun db => (.ok a, db)

def bind (x : AudioM α) (f : α → AudioM β) : AudioM β := fun db =>
  match x db with
  | (.ok a, db) => f a db
  | (.error e, db) => (.error e, db)

instance : Monad AudioM where
  pure := AudioM.pure
  bind := AudioM.bind

/-- A query, or a check: it leaves the tables alone. -/
def read (f : AudioDb → Result α) : AudioM α := fun db => (f db, db)

def write (f : AudioDb → AudioDb) : AudioM Unit := fun db => (.ok (), f db)

def raise (e : ServiceError) : AudioM α := fun db => (.error e, db)

/-- `session.begin_nested()`. -/
def savepoint (x : AudioM α) : AudioM α := fun db =>
  match x db with
  | (.ok a, db') => (.ok a, db')
  | (.error e, _) => (.error e, db)

end AudioM

/-! ## Checks -/

/-- `execution_attempt`, where zero counts as one. -/
def currentAttempt (run : AgentRun) : Nat :=
  if run.executionAttempt = 0 then 1 else run.executionAttempt

namespace MemoirAudioJobsService

/-- `_assert_run_active`. -/
def assertRunActive (runId : String) (leaseOwner : Option LeaseOwner) (db : AudioDb) :
    Result Unit :=
  match db.runs.find? runId with
  | none => .error (audioError "MEMOIR_AUDIO_RUN_NOT_FOUND")
  | some run => do
    require (run.cancelRequestedAt = none) (audioError "MEMOIR_AUDIO_RUN_CANCELLED")
    require (run.privacyState = .active) (audioError "MEMOIR_AUDIO_RUN_PRIVACY_BLOCKED")
    match leaseOwner.bind (LeaseOwner.attemptOf runId) with
    | some attempt =>
      require (attempt = currentAttempt run) (audioError "MEMOIR_AUDIO_FENCING_REJECTED")
    | none => pure ()

/-- `_load_for_write`: the run, the token, the expiry and the state. The
second read of the row finds what the first one found. -/
def loadForWrite (jobId : String) (leaseToken : Nat) (expectedStates : List AudioState)
    (now : Time) (checkExpiry : Bool) (fenceOwner : Option LeaseOwner) (db : AudioDb) :
    Result MemoirAudioJob :=
  match db.jobs.find? jobId with
  | none => .error (audioError "MEMOIR_AUDIO_JOB_NOT_FOUND")
  | some job => do
    assertRunActive job.slot.runId (some (fenceOwner.getD job.leaseOwner)) db
    require (job.leaseToken = leaseToken) (audioError "MEMOIR_AUDIO_FENCING_REJECTED")
    require (checkExpiry = true → ∃ expiry ∈ job.expiresAt, now < expiry)
      (audioError "MEMOIR_AUDIO_LEASE_EXPIRED")
    require (job.state ∈ expectedStates) (audioError "MEMOIR_AUDIO_JOB_STATE_INVALID")
    pure job

/-- The row an update of some columns makes. -/
def written (values : MemoirAudioJob → MemoirAudioJob) (now : Time) (row : MemoirAudioJob) :
    MemoirAudioJob :=
  { values row with jobId := row.jobId, slot := row.slot, updatedAt := now }

/-- `_cas_update`: the token and the state are conditions of the update. -/
def casUpdate (job : MemoirAudioJob) (leaseToken : Nat) (expectedStates : List AudioState)
    (now : Time) (values : MemoirAudioJob → MemoirAudioJob) : AudioM MemoirAudioJob := fun db =>
  match db.jobs.find? job.jobId with
  | none => (.error (audioError "MEMOIR_AUDIO_FENCING_REJECTED"), db)
  | some row =>
    if row.leaseToken = leaseToken ∧ row.state ∈ expectedStates then
      (.ok (written values now row), db.putJob (written values now row))
    else (.error (audioError "MEMOIR_AUDIO_FENCING_REJECTED"), db)

/-- `_fenced_update`. -/
def fencedUpdate (jobId : String) (leaseToken : Nat) (expectedStates : List AudioState)
    (now : Time) (values : MemoirAudioJob → MemoirAudioJob) (checkExpiry : Bool := true) :
    AudioM MemoirAudioJob := do
  let job ← AudioM.read (loadForWrite jobId leaseToken expectedStates now checkExpiry none)
  casUpdate job leaseToken expectedStates now values

/-! ## Reservation -/

structure MemoirAudioJobReservation where
  jobId : String
  businessId : String
  slot : AudioSlot
  estimatedCost : Rat
  leaseOwner : LeaseOwner
  leaseTtl : Time := seconds 60
  requestedMusicSeconds : Option Int := none

inductive Outcome
  | created | retried | reused
  deriving DecidableEq, Repr

structure ReservationOutcome where
  job : MemoirAudioJob
  outcome : Outcome

/-- `_validate_reservation`. -/
def validateReservation (r : MemoirAudioJobReservation) : Result Unit := do
  let invalid := audioError "MEMOIR_AUDIO_INPUT_INVALID"
  require (r.jobId ≠ "" ∧ r.businessId ≠ "" ∧ r.slot.runId ≠ "" ∧ r.slot.packageVersion ≠ "" ∧
    r.slot.sceneId ≠ "" ∧ r.slot.inputHmac ≠ "" ∧ r.leaseOwner ≠ .named "") invalid
  require (0 ≤ r.estimatedCost) invalid
  require (0 < r.leaseTtl) invalid
  require (if r.slot.role = .segment then 0 ≤ r.slot.segmentIndex
    else r.slot.segmentIndex = noSegmentIndex) invalid
  require (if r.slot.role = .backgroundMusic then
      (if r.estimatedCost = 0 then r.requestedMusicSeconds = none
      else r.requestedMusicSeconds ≠ none)
    else r.requestedMusicSeconds = none) invalid

def requirePolicy (policy : Option MemoirAudioCostPolicy) (_ : AudioDb) :
    Result MemoirAudioCostPolicy :=
  match policy with
  | some policy => pure policy
  | none => .error (audioError "MEMOIR_AUDIO_POLICY_INVALID")

/-- `_reserve_budget`: the conditional update of the run's budget row, or its
first row. -/
def reserveBudget (policy : Option MemoirAudioCostPolicy) (r : MemoirAudioJobReservation) :
    AudioM Unit := do
  let cost := r.estimatedCost
  if cost ≤ 0 then pure () else
  let policy ← AudioM.read (requirePolicy policy)
  AudioM.read fun _ => require (cost ≤ policy.maxCostPerRun)
    (audioError "MEMOIR_AUDIO_BUDGET_EXCEEDED")
  fun db =>
    match db.budgets.find? r.slot.runId with
    | none =>
      let budget := ⟨r.slot.runId, policy.currency, cost⟩
      (.ok (), { db with budgets := db.budgets.upsert budget })
    | some budget =>
      if budget.currency = policy.currency ∧
          budget.reservedTotalCost + cost ≤ policy.maxCostPerRun then
        let budget' := { budget with reservedTotalCost := budget.reservedTotalCost + cost }
        (.ok (), { db with budgets := db.budgets.put budget' })
      else if budget.currency ≠ policy.currency then
        (.error (audioError "MEMOIR_AUDIO_CURRENCY_MISMATCH"), db)
      else (.error (audioError "MEMOIR_AUDIO_BUDGET_EXCEEDED"), db)

/-- `find_job`. -/
def findJob (slot : AudioSlot) (db : AudioDb) : Option MemoirAudioJob :=
  db.jobs.rows.find? (fun job => decide (job.slot = slot))

/-- `list_work_background_music_jobs`. -/
def listWorkBackgroundMusicJobs (runId : String) (generationEpoch : Int)
    (packageVersion : String) (db : AudioDb) : List MemoirAudioJob :=
  db.jobs.rows.filter fun job => decide (job.slot.runId = runId ∧
    job.slot.generationEpoch = generationEpoch ∧ job.slot.packageVersion = packageVersion ∧
    job.slot.role = .backgroundMusic ∧ job.slot.sceneId = workSceneId ∧
    job.slot.segmentIndex = noSegmentIndex)

/-- The row a retry makes of a finished one. -/
def revived (existing : MemoirAudioJob) (r : MemoirAudioJobReservation) (now : Time)
    (row : MemoirAudioJob) : MemoirAudioJob :=
  { row with
    attempt := existing.attempt + 1
    leaseToken := existing.leaseToken + 1
    leaseOwner := r.leaseOwner
    expiresAt := some (now + r.leaseTtl)
    state := .reserved
    errorCode := none
    providerTaskId := none
    durationMs := none
    reservedCost := existing.reservedCost + r.estimatedCost
    usageTextWords := none
    requestedMusicSeconds := r.requestedMusicSeconds
    updatedAt := now }

/-- `_reserve_existing`. -/
def reserveExisting (policy : Option MemoirAudioCostPolicy) (existing : MemoirAudioJob)
    (r : MemoirAudioJobReservation) (now : Time) : AudioM ReservationOutcome :=
  if existing.state = .submissionUnknown then
    AudioM.raise (audioError "MEMOIR_AUDIO_SUBMISSION_UNKNOWN")
  else if existing.state ∈ successStates then pure ⟨existing, .reused⟩
  else if existing.state ∈ activeStates then
    AudioM.raise (audioError "MEMOIR_AUDIO_JOB_SLOT_ACTIVE")
  else AudioM.savepoint do
    reserveBudget policy r
    fun db =>
      match db.jobs.find? existing.jobId with
      | none => (.error (audioError "MEMOIR_AUDIO_JOB_SLOT_ACTIVE"), db)
      | some row =>
        if row.state = existing.state then
          (.ok ⟨revived existing r now row, .retried⟩, db.putJob (revived existing r now row))
        else (.error (audioError "MEMOIR_AUDIO_JOB_SLOT_ACTIVE"), db)

/-- The row of a new slot. -/
def newJob (policy : MemoirAudioCostPolicy) (r : MemoirAudioJobReservation) (now : Time) :
    MemoirAudioJob where
  jobId := r.jobId
  businessId := r.businessId
  slot := r.slot
  reservedCost := r.estimatedCost
  currency := policy.currency
  requestedMusicSeconds := r.requestedMusicSeconds
  leaseOwner := r.leaseOwner
  expiresAt := some (now + r.leaseTtl)
  updatedAt := now

/-- Budget and row of a new slot; a job id that is taken is an `IntegrityError`. -/
def createJob (policy : Option MemoirAudioCostPolicy) (r : MemoirAudioJobReservation)
    (now : Time) : AudioM ReservationOutcome := do
  reserveBudget policy r
  let policy ← AudioM.read (requirePolicy policy)
  let job := newJob policy r now
  fun db =>
    match db.jobs.insert? job with
    | some jobs => (.ok ⟨job, .created⟩, { db with jobs })
    | none => (.error .integrity, db)

/-- The loop of `reserve_job` over its rounds. -/
def reserveNew (policy : Option MemoirAudioCostPolicy) (r : MemoirAudioJobReservation)
    (now : Time) : Nat → AudioM ReservationOutcome
  | 0 => AudioM.raise (audioError "MEMOIR_AUDIO_RESERVE_CONFLICT")
  | rounds + 1 => fun db =>
    match AudioM.savepoint (createJob policy r now) db with
    | (.error .integrity, db) =>
      match findJob r.slot db with
      | some winner => reserveExisting policy winner r now db
      | none =>
        if rounds = 0 then (.error (audioError "MEMOIR_AUDIO_RESERVE_CONFLICT"), db)
        else reserveNew policy r now rounds db
    | result => result

/-- The part of `reserve_job` under the run's row lock. -/
def checkSlot (r : MemoirAudioJobReservation) (db : AudioDb) : Result Unit := do
  assertRunActive r.slot.runId (some r.leaseOwner) db
  require (r.slot.role = .backgroundMusic → r.slot.sceneId = workSceneId →
      ∀ row ∈ listWorkBackgroundMusicJobs r.slot.runId r.slot.generationEpoch
        r.slot.packageVersion db, row.slot.inputHmac = r.slot.inputHmac)
    (audioError "MEMOIR_AUDIO_JOB_SLOT_ACTIVE")

/-- `reserve_job`. -/
def reserveJob (policy : Option MemoirAudioCostPolicy) (r : MemoirAudioJobReservation)
    (now : Time) : AudioM ReservationOutcome := do
  AudioM.read fun _ => validateReservation r
  AudioM.savepoint (AudioM.read (checkSlot r))
  fun db =>
    match findJob r.slot db with
    | some existing => reserveExisting policy existing r now db
    | none => reserveNew policy r now 2 db

/-! ## Queries -/

/-- `find_reusable_uploaded_asset`: the row of the highest id. -/
def findReusableUploadedAsset (slot : AudioSlot) (db : AudioDb) : Option MemoirAudioJob :=
  (db.jobs.rows.filter fun job => decide (job.slot.runId = slot.runId ∧
    job.slot.generationEpoch = slot.generationEpoch ∧
    job.slot.packageVersion = slot.packageVersion ∧ job.slot.role = slot.role ∧
    job.slot.sceneId = slot.sceneId ∧ job.slot.inputHmac = slot.inputHmac ∧
    job.state ∈ successStates)).getLast?

/-- `find_pending_music_task`: the row of the lowest id. -/
def findPendingMusicTask (slot : AudioSlot) (db : AudioDb) : Option MemoirAudioJob :=
  db.jobs.rows.find? fun job => decide (job.slot.runId = slot.runId ∧
    job.slot.generationEpoch = slot.generationEpoch ∧
    job.slot.packageVersion = slot.packageVersion ∧ job.slot.role = .backgroundMusic ∧
    job.slot.sceneId = workSceneId ∧ job.slot.inputHmac = slot.inputHmac ∧
    (job.state = .submitted ∨ job.state = .processing) ∧ job.providerTaskId ≠ none)

/-! ## The states of a job -/

/-- `mark_submitting`. -/
def markSubmitting (jobId : String) (leaseToken : Nat) (now : Time) : AudioM MemoirAudioJob :=
  fencedUpdate jobId leaseToken [.reserved, .submitting] now
    (fun row => { row with state := .submitting })

/-- `mark_submitted`: music comes with the provider's task id. -/
def markSubmitted (jobId : String) (leaseToken : Nat) (providerTaskId : Option String)
    (now : Time) : AudioM MemoirAudioJob := do
  let job ← AudioM.read
    (loadForWrite jobId leaseToken [.submitting, .submitted] now true none)
  AudioM.read fun _ => require (job.slot.role = .backgroundMusic →
    providerTaskId ≠ none ∧ providerTaskId ≠ some "") (audioError "MEMOIR_AUDIO_INPUT_INVALID")
  casUpdate job leaseToken [.submitting, .submitted] now fun row =>
    { row with
      state := .submitted
      providerTaskId := if providerTaskId = some "" then none else providerTaskId }

/-- `mark_processing`. -/
def markProcessing (jobId : String) (leaseToken : Nat) (now : Time) : AudioM MemoirAudioJob :=
  fencedUpdate jobId leaseToken [.submitted, .processing] now
    (fun row => { row with state := .processing })

/-- `record_object_key`: a key that is recorded stays. -/
def recordObjectKey (jobId : String) (leaseToken : Nat) (objectKey mime : String) (now : Time) :
    AudioM MemoirAudioJob := do
  AudioM.read fun _ => require (objectKey ≠ "") (audioError "MEMOIR_AUDIO_INPUT_INVALID")
  AudioM.read fun _ => require ("audio/".toList <+: mime.toList)
    (audioError "MEMOIR_AUDIO_INPUT_INVALID")
  let job ← AudioM.read (loadForWrite jobId leaseToken activeStates now true none)
  match job.objectKey with
  | some recorded =>
    AudioM.read fun _ => require (recorded = objectKey)
      (audioError "MEMOIR_AUDIO_OBJECT_KEY_CONFLICT")
    pure job
  | none =>
    casUpdate job leaseToken activeStates now fun row =>
      { row with objectKey := some objectKey, mime := some mime }

/-- `record_upload`. -/
def recordUpload (jobId : String) (leaseToken : Nat) (durationMs : Int) (now : Time) :
    AudioM MemoirAudioJob := do
  AudioM.read fun _ => require (0 < durationMs) (audioError "MEMOIR_AUDIO_INPUT_INVALID")
  let job ← AudioM.read (loadForWrite jobId leaseToken activeStates now true none)
  AudioM.read fun _ => require (job.objectKey ≠ none) (audioError "MEMOIR_AUDIO_INPUT_INVALID")
  casUpdate job leaseToken activeStates now fun row =>
    { row with state := .uploaded, durationMs := some durationMs }

/-- `mark_published`. -/
def markPublished (jobId : String) (leaseToken : Nat) (now : Time) : AudioM MemoirAudioJob :=
  fencedUpdate jobId leaseToken [.uploaded, .published] now
    (fun row => { row with state := .published })

/-- `mark_failed`. -/
def markFailed (jobId : String) (leaseToken : Nat) (errorCode : String) (now : Time) :
    AudioM MemoirAudioJob := do
  AudioM.read fun _ => require (errorCode ≠ "") (audioError "MEMOIR_AUDIO_INPUT_INVALID")
  fencedUpdate jobId leaseToken activeStates now
    (fun row => { row with state := .failed, errorCode := some errorCode })

/-- `mark_cancelled`. -/
def markCancelled (jobId : String) (leaseToken : Nat) (errorCode : Option String) (now : Time) :
    AudioM MemoirAudioJob :=
  fencedUpdate jobId leaseToken activeStates now
    (fun row => { row with state := .cancelled, errorCode })

/-- `mark_submission_unknown`. -/
def markSubmissionUnknown (jobId : String) (leaseToken : Nat) (errorCode : String)
    (now : Time) : AudioM MemoirAudioJob := do
  AudioM.read fun _ => require (errorCode ≠ "") (audioError "MEMOIR_AUDIO_INPUT_INVALID")
  fencedUpdate jobId leaseToken [.submitting, .submitted] now
    (fun row => { row with state := .submissionUnknown, errorCode := some errorCode })

/-! ## Settlement -/

/-- The states a settlement may start from. -/
def settleStates : List AudioState := [.submitted, .processing, .uploaded, .published]

/-- `settle_tts_usage`. -/
def settleTtsUsage (policy : Option MemoirAudioCostPolicy) (jobId : String) (leaseToken : Nat)
    (usageTextWords : Int) (now : Time) : AudioM MemoirAudioJob := do
  AudioM.read fun _ => require (0 ≤ usageTextWords) (audioError "MEMOIR_AUDIO_INPUT_INVALID")
  let policy ← AudioM.read (requirePolicy policy)
  let settled := quantizeHalfUp (policy.ttsCost usageTextWords)
  fencedUpdate jobId leaseToken settleStates now fun row =>
    { row with usageTextWords := some usageTextWords, settledCost := some settled }

/-- `settle_music_usage`. -/
def settleMusicUsage (policy : Option MemoirAudioCostPolicy) (jobId : String) (leaseToken : Nat)
    (requestedMusicSeconds : Int) (now : Time) : AudioM MemoirAudioJob := do
  AudioM.read fun _ => require (0 < requestedMusicSeconds)
    (audioError "MEMOIR_AUDIO_INPUT_INVALID")
  let policy ← AudioM.read (requirePolicy policy)
  let settled := quantizeHalfUp (policy.musicCost requestedMusicSeconds)
  fencedUpdate jobId leaseToken settleStates now fun row =>
    { row with
      requestedMusicSeconds := some requestedMusicSeconds, settledCost := some settled }

/-- `settle_default_music_usage`: a settlement at no cost, which does not
replace a paid one. -/
def settleDefaultMusicUsage (jobId : String) (leaseToken : Nat) (now : Time) :
    AudioM MemoirAudioJob := do
  let job ← AudioM.read (loadForWrite jobId leaseToken [.reserved, .uploaded] now true none)
  match job.settledCost with
  | some settled =>
    AudioM.read fun _ => require (settled = 0) (audioError "MEMOIR_AUDIO_SETTLE_CONFLICT")
    pure job
  | none =>
    casUpdate job leaseToken [.reserved, .uploaded] now fun row =>
      { row with settledCost := some 0 }

/-! ## Leases -/

/-- `renew_lease`: also after the expiry. -/
def renewLease (jobId : String) (leaseToken : Nat) (ttl now : Time) : AudioM MemoirAudioJob := do
  AudioM.read fun _ => require (0 < ttl) (audioError "MEMOIR_AUDIO_INPUT_INVALID")
  fencedUpdate jobId leaseToken activeStates now
    (fun row => { row with expiresAt := some (now + ttl) }) false

/-- `rotate_lease`: the run is checked for the new owner. -/
def rotateLease (jobId : String) (expectedToken : Nat) (owner : LeaseOwner) (ttl now : Time) :
    AudioM MemoirAudioJob := do
  AudioM.read fun _ => require (0 < ttl) (audioError "MEMOIR_AUDIO_INPUT_INVALID")
  AudioM.read fun _ => require (owner ≠ .named "") (audioError "MEMOIR_AUDIO_INPUT_INVALID")
  let job ← AudioM.read
    (loadForWrite jobId expectedToken activeStates now false (some owner))
  casUpdate job expectedToken activeStates now fun row =>
    { row with
      leaseToken := row.leaseToken + 1, leaseOwner := owner, expiresAt := some (now + ttl) }

end MemoirAudioJobsService

end AgentRuntime
