import Mathlib.Data.List.Sort
import AgentRuntime.AudioWrites

/-!
# Maintenance of the audio ledger

`app/scripts/memoir_audio_maintenance.py`: `run_maintenance` ends what was
abandoned, lists the orphans, and goes through them. Whether the object of
an orphan is deleted is decided by a cascade (`verdict`): an unexpired
lease, an unsettled submission, the answer of the publish probe and the
retention window each keep it, in this order.

The probe and the deleter stand for the business and the object store. The
probe returns a JSON value (`None` is `null`) or raises; the deleter deletes
the object, finds none, or raises.
-/

namespace AgentRuntime

open Keyed

namespace MemoirAudioJobsService

/-- The lease ran out before `cutoff`. -/
def Lapsed (cutoff : Int) (job : MemoirAudioJob) : Prop :=
  ∃ expiry ∈ job.expiresAt, (expiry : Int) < cutoff

instance (cutoff : Int) (job : MemoirAudioJob) : Decidable (Lapsed cutoff job) := by
  unfold Lapsed; infer_instance

/-- The rows `fail_abandoned_keyed_jobs` ends. -/
def AbandonedKeyed (cutoff : Int) (job : MemoirAudioJob) : Prop :=
  job.state ∈ activeStates ∧ job.objectKey ≠ none ∧ Lapsed cutoff job

/-- The rows `fail_abandoned_keyless_default_jobs` ends. -/
def AbandonedKeyless (cutoff : Int) (job : MemoirAudioJob) : Prop :=
  job.state = .reserved ∧ job.slot.role = .backgroundMusic ∧ job.objectKey = none ∧
    job.providerTaskId = none ∧ job.reservedCost = 0 ∧ Lapsed cutoff job

instance (cutoff : Int) (job : MemoirAudioJob) : Decidable (AbandonedKeyed cutoff job) := by
  unfold AbandonedKeyed; infer_instance

instance (cutoff : Int) (job : MemoirAudioJob) : Decidable (AbandonedKeyless cutoff job) := by
  unfold AbandonedKeyless; infer_instance

def abandon (job : MemoirAudioJob) : MemoirAudioJob :=
  { job with state := .failed, errorCode := some "AUDIO_LEASE_ABANDONED" }

/-- `fail_abandoned_keyed_jobs`: `updated_at` stays, so the retention window
does not start again. -/
def failAbandonedKeyedJobs (cutoff : Int) (db : AudioDb) : AudioDb :=
  { db with
    jobs := db.jobs.mapRows
      (fun job => if AbandonedKeyed cutoff job then abandon job else job)
      (fun job => by split <;> rfl) }

/-- `fail_abandoned_keyless_default_jobs`. -/
def failAbandonedKeylessDefaultJobs (cutoff : Int) (db : AudioDb) : AudioDb :=
  { db with
    jobs := db.jobs.mapRows
      (fun job => if AbandonedKeyless cutoff job then
        { abandon job with settledCost := some 0 } else job)
      (fun job => by split <;> rfl) }

/-- `list_orphan_candidates`. -/
def listOrphanCandidates (limit : Nat) (db : AudioDb) : List MemoirAudioJob :=
  ((db.jobs.rows.filter fun job =>
      decide (job.state ∈ orphanStates ∧ job.objectKey ≠ none)).insertionSort
    (fun a b => a.updatedAt ≤ b.updatedAt)).take limit

/-- `mark_cleaned`. -/
def markCleaned (jobId : String) (now : Time) : AudioM MemoirAudioJob := fun db =>
  match db.jobs.find? jobId with
  | none => (.error (audioError "MEMOIR_AUDIO_JOB_NOT_FOUND"), db)
  | some job =>
    if job.state ∈ orphanStates then
      let cleaned := { job with state := .cleaned, updatedAt := now }
      (.ok cleaned, db.putJob cleaned)
    else (.error (audioError "MEMOIR_AUDIO_JOB_STATE_INVALID"), db)

end MemoirAudioJobsService

namespace MemoirAudioMaintenance

open MemoirAudioJobsService

/-- What the publish probe does: `value .null` says that nothing is published. -/
inductive ProbeAnswer
  | raised
  | value (answer : Json)

/-- What `delete_object` does. -/
inductive Deletion
  | deleted | notFound | raised
  deriving DecidableEq, Repr

structure Maintenance where
  retentionHours : Int
  limit : Nat
  execute : Bool
  publishProbe : Option (MemoirAudioJob → ProbeAnswer)
  ossDeleter : MemoirAudioJob → Deletion

/-- `_published_audio_object_keys`: a complete list of strings, or nothing. -/
def publishedAudioObjectKeys (probe : List (String × Json)) : Option (List String) :=
  match Json.get? "audio_object_keys" probe with
  | some (.arr items) => items.mapM fun item =>
      match item with
      | .str key => some key
      | _ => none
  | _ => none

/-- What the probe says about the object of a job. -/
inductive Publication
  | referenced | unreferenced | unknown
  deriving DecidableEq, Repr

def publication (publishProbe : Option (MemoirAudioJob → ProbeAnswer)) (job : MemoirAudioJob) :
    Publication :=
  match publishProbe with
  | none => .unknown
  | some probe =>
    match probe job with
    | .raised => .unknown
    | .value .null => .unreferenced
    | .value (.obj fields) =>
      match publishedAudioObjectKeys fields with
      | none => .unknown
      | some keys => if ∃ key ∈ job.objectKey, key ∈ keys then .referenced else .unreferenced
    | .value _ => .unknown

inductive Verdict
  | keepInFlight | keepLedgerPending | keepPublished | keepWithinRetention
  | deleteCandidate | keepUnknown
  deriving DecidableEq, Repr

/-- `moment - timedelta(hours=retention_hours)`. -/
def retentionEdge (m : Maintenance) (moment : Time) : Int :=
  moment - m.retentionHours * (seconds 3600 : Nat)

/-- The cascade of `run_maintenance`. -/
def verdict (m : Maintenance) (moment : Time) (job : MemoirAudioJob) : Verdict :=
  if ∃ expiry ∈ job.expiresAt, moment < expiry then .keepInFlight
  else if job.state = .submissionUnknown then .keepLedgerPending
  else
    match publication m.publishProbe job with
    | .referenced => .keepPublished
    | .unreferenced =>
      if retentionEdge m moment < job.updatedAt then .keepWithinRetention else .deleteCandidate
    | .unknown =>
      if retentionEdge m moment < job.updatedAt then .keepWithinRetention else .keepUnknown

structure MaintenanceReport where
  scanned : Nat := 0
  keepInFlight : Nat := 0
  keepLedgerPending : Nat := 0
  keepPublished : Nat := 0
  keepUnknown : Nat := 0
  keepWithinRetention : Nat := 0
  deleteCandidates : Nat := 0
  deleted : Nat := 0
  deleteFailed : Nat := 0
  deriving DecidableEq, Repr

/-- The field of an outcome. -/
def MaintenanceReport.count (report : MaintenanceReport) : Verdict → Nat
  | .keepInFlight => report.keepInFlight
  | .keepLedgerPending => report.keepLedgerPending
  | .keepPublished => report.keepPublished
  | .keepWithinRetention => report.keepWithinRetention
  | .deleteCandidate => report.deleteCandidates
  | .keepUnknown => report.keepUnknown

/-- `_bump`. -/
def MaintenanceReport.bump (report : MaintenanceReport) : Verdict → MaintenanceReport
  | .keepInFlight => { report with keepInFlight := report.keepInFlight + 1 }
  | .keepLedgerPending => { report with keepLedgerPending := report.keepLedgerPending + 1 }
  | .keepPublished => { report with keepPublished := report.keepPublished + 1 }
  | .keepWithinRetention => { report with keepWithinRetention := report.keepWithinRetention + 1 }
  | .deleteCandidate => { report with deleteCandidates := report.deleteCandidates + 1 }
  | .keepUnknown => { report with keepUnknown := report.keepUnknown + 1 }

/-- `_bump` of `deleted` or of `delete_failed`. -/
def MaintenanceReport.bumpDeletion (report : MaintenanceReport) : Deletion → MaintenanceReport
  | .raised => { report with deleteFailed := report.deleteFailed + 1 }
  | .deleted | .notFound => { report with deleted := report.deleted + 1 }

/-- A call of `delete_object`. -/
structure DeleteCall where
  job : MemoirAudioJob
  objectKey : String
  outcome : Deletion

def Maintenance.callFor (m : Maintenance) (job : MemoirAudioJob) : DeleteCall :=
  ⟨job, job.objectKey.getD "", m.ossDeleter job⟩

/-- The loop of `run_maintenance` over the candidates. -/
def maintainCandidates (m : Maintenance) (moment : Time) (report : MaintenanceReport)
    (calls : List DeleteCall) : List MemoirAudioJob → AudioM (MaintenanceReport × List DeleteCall)
  | [] => pure (report, calls)
  | job :: jobs =>
    let report := report.bump (verdict m moment job)
    if verdict m moment job ≠ .deleteCandidate ∨ m.execute = false then
      maintainCandidates m moment report calls jobs
    else if m.ossDeleter job = .raised then
      maintainCandidates m moment (report.bumpDeletion .raised) (calls ++ [m.callFor job]) jobs
    else do
      let _ ← markCleaned job.jobId moment
      maintainCandidates m moment (report.bumpDeletion (m.ossDeleter job))
        (calls ++ [m.callFor job]) jobs

/-- The tables after the abandoned leases are ended; a dry run ends none. -/
def reaped (m : Maintenance) (moment : Time) (db : AudioDb) : AudioDb :=
  if m.execute = true then
    failAbandonedKeylessDefaultJobs (retentionEdge m moment)
      (failAbandonedKeyedJobs (retentionEdge m moment) db)
  else db

/-- `run_maintenance`. -/
def runMaintenance (m : Maintenance) (moment : Time) :
    AudioM (MaintenanceReport × List DeleteCall) := do
  AudioM.write (reaped m moment)
  let candidates ← AudioM.read fun db => pure (listOrphanCandidates m.limit db)
  maintainCandidates m moment { scanned := candidates.length } [] candidates

/-! ## What a pass does -/

/-- The calls a pass makes for the candidates. -/
def deleteCalls (m : Maintenance) (moment : Time) (jobs : List MemoirAudioJob) :
    List DeleteCall :=
  if m.execute = true then
    (jobs.filter fun job => decide (verdict m moment job = .deleteCandidate)).map m.callFor
  else []

theorem deleteCalls_cons_skip {m : Maintenance} {moment : Time} {job : MemoirAudioJob}
    (jobs : List MemoirAudioJob)
    (h : verdict m moment job ≠ .deleteCandidate ∨ m.execute = false) :
    deleteCalls m moment (job :: jobs) = deleteCalls m moment jobs := by
  unfold deleteCalls
  rcases h with hkeep | hdry
  · rw [List.filter_cons_of_neg (by simpa using hkeep)]
  · simp [hdry]

theorem deleteCalls_cons_call {m : Maintenance} {moment : Time} {job : MemoirAudioJob}
    (jobs : List MemoirAudioJob)
    (h : ¬ (verdict m moment job ≠ .deleteCandidate ∨ m.execute = false)) :
    deleteCalls m moment (job :: jobs) = m.callFor job :: deleteCalls m moment jobs := by
  obtain ⟨hverdict, hexecute⟩ := not_or.mp h
  have hverdict : verdict m moment job = .deleteCandidate := not_not.mp hverdict
  have hexecute : m.execute = true := by simpa using hexecute
  unfold deleteCalls
  rw [if_pos hexecute, if_pos hexecute, List.filter_cons_of_pos (by simpa using hverdict),
    List.map_cons]

/-- The report of a pass over `jobs`, added to an earlier one. -/
structure Tallied (m : Maintenance) (moment : Time) (jobs : List MemoirAudioJob)
    (report report' : MaintenanceReport) : Prop where
  scanned : report'.scanned = report.scanned
  counted : ∀ v, report'.count v
    = report.count v + jobs.countP fun job => decide (verdict m moment job = v)
  deleted : report'.deleted = report.deleted
    + (deleteCalls m moment jobs).countP fun call => decide (call.outcome ≠ .raised)
  failed : report'.deleteFailed = report.deleteFailed
    + (deleteCalls m moment jobs).countP fun call => decide (call.outcome = .raised)

theorem count_bump (report : MaintenanceReport) (v w : Verdict) :
    (report.bump v).count w = report.count w + if v = w then 1 else 0 := by
  cases v <;> cases w <;> rfl

@[simp] theorem scanned_bump (report : MaintenanceReport) (v : Verdict) :
    (report.bump v).scanned = report.scanned := by
  cases v <;> rfl

@[simp] theorem deleted_bump (report : MaintenanceReport) (v : Verdict) :
    (report.bump v).deleted = report.deleted := by
  cases v <;> rfl

@[simp] theorem deleteFailed_bump (report : MaintenanceReport) (v : Verdict) :
    (report.bump v).deleteFailed = report.deleteFailed := by
  cases v <;> rfl

@[simp] theorem count_bumpDeletion (report : MaintenanceReport) (d : Deletion) (v : Verdict) :
    (report.bumpDeletion d).count v = report.count v := by
  cases d <;> cases v <;> rfl

@[simp] theorem scanned_bumpDeletion (report : MaintenanceReport) (d : Deletion) :
    (report.bumpDeletion d).scanned = report.scanned := by
  cases d <;> rfl

theorem deleted_bumpDeletion (report : MaintenanceReport) (d : Deletion) :
    (report.bumpDeletion d).deleted = report.deleted + if d ≠ .raised then 1 else 0 := by
  cases d <;> rfl

theorem deleteFailed_bumpDeletion (report : MaintenanceReport) (d : Deletion) :
    (report.bumpDeletion d).deleteFailed = report.deleteFailed + if d = .raised then 1 else 0 := by
  cases d <;> rfl

theorem tallied_nil (m : Maintenance) (moment : Time) (report : MaintenanceReport) :
    Tallied m moment [] report report :=
  ⟨rfl, fun _ => rfl, by simp [deleteCalls], by simp [deleteCalls]⟩

theorem Tallied.cons_skip {m : Maintenance} {moment : Time} {job : MemoirAudioJob}
    {jobs : List MemoirAudioJob} {report report' : MaintenanceReport}
    (hskip : verdict m moment job ≠ .deleteCandidate ∨ m.execute = false)
    (h : Tallied m moment jobs (report.bump (verdict m moment job)) report') :
    Tallied m moment (job :: jobs) report report' where
  scanned := by simpa using h.scanned
  counted v := by
    rw [h.counted v, count_bump, List.countP_cons]
    simp only [decide_eq_true_eq]
    omega
  deleted := by
    rw [deleteCalls_cons_skip jobs hskip, h.deleted, deleted_bump]
  failed := by
    rw [deleteCalls_cons_skip jobs hskip, h.failed, deleteFailed_bump]

theorem Tallied.cons_call {m : Maintenance} {moment : Time} {job : MemoirAudioJob}
    {jobs : List MemoirAudioJob} {report report' : MaintenanceReport}
    (hcall : ¬ (verdict m moment job ≠ .deleteCandidate ∨ m.execute = false))
    (h : Tallied m moment jobs
      ((report.bump (verdict m moment job)).bumpDeletion (m.ossDeleter job)) report') :
    Tallied m moment (job :: jobs) report report' where
  scanned := by simpa using h.scanned
  counted v := by
    rw [h.counted v, count_bumpDeletion, count_bump, List.countP_cons]
    simp only [decide_eq_true_eq]
    omega
  deleted := by
    rw [deleteCalls_cons_call jobs hcall, h.deleted, deleted_bumpDeletion, deleted_bump,
      List.countP_cons]
    by_cases hraised : m.ossDeleter job = .raised
    · simp [Maintenance.callFor, hraised]
    · simp [Maintenance.callFor, hraised]
      omega
  failed := by
    rw [deleteCalls_cons_call jobs hcall, h.failed, deleteFailed_bumpDeletion,
      deleteFailed_bump, List.countP_cons]
    by_cases hraised : m.ossDeleter job = .raised
    · simp [Maintenance.callFor, hraised]
      omega
    · simp [Maintenance.callFor, hraised]

/-- A row that is still there and is an orphan is marked cleaned. -/
theorem markCleaned_orphan {db : AudioDb} {job : MemoirAudioJob} (moment : Time)
    (hfind : db.jobs.find? job.jobId = some job) (horphan : job.state ∈ orphanStates) :
    ∃ job' db', markCleaned job.jobId moment db = (.ok job', db') ∧
      ∀ id, id ≠ job.jobId → db'.jobs.find? id = db.jobs.find? id := by
  let cleaned := { job with state := .cleaned, updatedAt := moment }
  refine ⟨cleaned, db.putJob cleaned, ?_, fun id hid => Table.find?_put_ne hid⟩
  unfold markCleaned
  rw [hfind]
  exact if_pos horphan

/-- The loop goes through: the calls are those of the candidates with the
last verdict, the report counts them, and only the row of an object that is
gone is written. -/
theorem maintainCandidates_spec (m : Maintenance) (moment : Time) :
    ∀ (jobs : List MemoirAudioJob) (report : MaintenanceReport) (calls : List DeleteCall)
      (db : AudioDb), (jobs.map MemoirAudioJob.jobId).Nodup →
      (∀ job ∈ jobs, db.jobs.find? job.jobId = some job ∧ job.state ∈ orphanStates) →
      ∃ report' db', maintainCandidates m moment report calls jobs db
          = (.ok (report', calls ++ deleteCalls m moment jobs), db') ∧
        Tallied m moment jobs report report' ∧
        (∀ id, (∀ call ∈ deleteCalls m moment jobs, call.job.jobId = id →
            call.outcome = .raised) → db'.jobs.find? id = db.jobs.find? id) ∧
        (m.execute = false → db' = db)
  | [], report, calls, db, _, _ => by
    refine ⟨report, db, ?_, tallied_nil m moment report, fun _ _ => rfl, fun _ => rfl⟩
    have hnone : deleteCalls m moment [] = [] := by simp [deleteCalls]
    rw [hnone, List.append_nil]
    rfl
  | job :: jobs, report, calls, db, hnodup, hjobs => by
    obtain ⟨hnew, hnodup⟩ := List.nodup_cons.mp hnodup
    have hother : ∀ j ∈ jobs, j.jobId ≠ job.jobId := fun j hj he =>
      hnew (List.mem_map.mpr ⟨j, hj, he⟩)
    unfold maintainCandidates
    by_cases hskip : verdict m moment job ≠ .deleteCandidate ∨ m.execute = false
    · obtain ⟨report', db', hrun, htally, hframe, hdry⟩ :=
        maintainCandidates_spec m moment jobs (report.bump (verdict m moment job)) calls db
          hnodup fun j hj => hjobs j (List.mem_cons_of_mem _ hj)
      rw [← deleteCalls_cons_skip jobs hskip] at hrun hframe
      dsimp only
      rw [if_pos hskip]
      exact ⟨report', db', hrun, htally.cons_skip hskip, hframe, hdry⟩
    · have hexecute : m.execute ≠ false := fun he => hskip (Or.inr he)
      dsimp only
      rw [if_neg hskip]
      by_cases hraised : m.ossDeleter job = .raised
      · obtain ⟨report', db', hrun, htally, hframe, -⟩ :=
          maintainCandidates_spec m moment jobs
            ((report.bump (verdict m moment job)).bumpDeletion .raised)
            (calls ++ [m.callFor job]) db hnodup
            fun j hj => hjobs j (List.mem_cons_of_mem _ hj)
        rw [if_pos hraised, deleteCalls_cons_call jobs hskip]
        rw [List.append_assoc, List.singleton_append] at hrun
        rw [← hraised] at htally hrun
        rw [hraised] at hrun
        refine ⟨report', db', hrun, htally.cons_call hskip, fun id hid => ?_, fun he =>
          absurd he hexecute⟩
        exact hframe id fun call hcall => hid call (List.mem_cons_of_mem _ hcall)
      · obtain ⟨hfind, horphan⟩ := hjobs job List.mem_cons_self
        obtain ⟨job', db₁, hclean, hrest⟩ := markCleaned_orphan moment hfind horphan
        obtain ⟨report', db', hrun, htally, hframe, -⟩ :=
          maintainCandidates_spec m moment jobs
            ((report.bump (verdict m moment job)).bumpDeletion (m.ossDeleter job))
            (calls ++ [m.callFor job]) db₁ hnodup fun j hj => by
              rw [hrest j.jobId (hother j hj)]
              exact hjobs j (List.mem_cons_of_mem _ hj)
        rw [if_neg hraised, deleteCalls_cons_call jobs hskip]
        rw [List.append_assoc, List.singleton_append] at hrun
        refine ⟨report', db', ?_, htally.cons_call hskip, fun id hid => ?_, fun he =>
          absurd he hexecute⟩
        · show AudioM.bind _ _ db = _
          unfold AudioM.bind
          rw [hclean]
          exact hrun
        · have hne : id ≠ job.jobId := fun he =>
            hraised (hid (m.callFor job) List.mem_cons_self he.symm)
          rw [hframe id fun call hcall => hid call (List.mem_cons_of_mem _ hcall), hrest id hne]

/-! ## The candidates -/

theorem mem_listOrphanCandidates {limit : Nat} {db : AudioDb} {job : MemoirAudioJob}
    (h : job ∈ listOrphanCandidates limit db) :
    db.jobs.find? job.jobId = some job ∧ job.state ∈ orphanStates ∧ job.objectKey ≠ none := by
  have hmem := (List.mem_insertionSort _).mp (List.mem_of_mem_take h)
  obtain ⟨hrow, horphan⟩ := List.mem_filter.mp hmem
  exact ⟨Table.find?_of_mem hrow, of_decide_eq_true horphan⟩

theorem nodup_listOrphanCandidates (limit : Nat) (db : AudioDb) :
    ((listOrphanCandidates limit db).map MemoirAudioJob.jobId).Nodup := by
  unfold listOrphanCandidates
  refine List.Nodup.sublist ((List.take_sublist _ _).map _) ?_
  refine ((List.perm_insertionSort _ _).map _).nodup_iff.mpr ?_
  exact db.jobs.nodup.sublist (List.filter_sublist.map _)

/-- Every candidate has one verdict. -/
theorem countP_verdicts (m : Maintenance) (moment : Time) (jobs : List MemoirAudioJob) :
    (jobs.countP fun job => decide (verdict m moment job = .keepInFlight))
      + (jobs.countP fun job => decide (verdict m moment job = .keepLedgerPending))
      + (jobs.countP fun job => decide (verdict m moment job = .keepPublished))
      + (jobs.countP fun job => decide (verdict m moment job = .keepWithinRetention))
      + (jobs.countP fun job => decide (verdict m moment job = .deleteCandidate))
      + (jobs.countP fun job => decide (verdict m moment job = .keepUnknown)) = jobs.length := by
  induction jobs with
  | nil => rfl
  | cons job jobs ih =>
    simp only [List.countP_cons, List.length_cons]
    cases hv : verdict m moment job <;> simp [← ih] <;> omega

theorem countP_outcomes (calls : List DeleteCall) :
    (calls.countP fun call => decide (call.outcome ≠ .raised))
      + (calls.countP fun call => decide (call.outcome = .raised)) = calls.length := by
  rw [List.length_eq_countP_add_countP (fun call => decide (call.outcome = .raised)) (l := calls),
    Nat.add_comm]
  simp

/-! ## When an object is deleted -/

theorem mapM_keys {items : List Json} {keys : List String}
    (h : items.mapM (fun item => match item with
      | .str key => some key
      | _ => none) = some keys) : items = keys.map Json.str := by
  induction items generalizing keys with
  | nil =>
    cases h
    rfl
  | cons item items ih =>
    rw [List.mapM_cons] at h
    obtain ⟨key, hkey, h⟩ := Option.bind_eq_some_iff.mp h
    obtain ⟨rest, hrest, h⟩ := Option.bind_eq_some_iff.mp h
    cases h
    cases item <;> cases hkey
    rw [List.map_cons, ← ih hrest]

/-- The list of keys is read only where it is one. -/
theorem publishedAudioObjectKeys_some {probe : List (String × Json)} {keys : List String}
    (h : publishedAudioObjectKeys probe = some keys) :
    Json.get? "audio_object_keys" probe = some (.arr (keys.map Json.str)) := by
  unfold publishedAudioObjectKeys at h
  split at h
  next items hget => rw [hget, mapM_keys h]
  next => cases h

/-- The probe said that nothing is published, or listed the keys of what is,
without the job's. -/
def Unpublished (m : Maintenance) (job : MemoirAudioJob) : Prop :=
  ∃ probe ∈ m.publishProbe, probe job = .value .null ∨
    ∃ (fields : List (String × Json)) (keys : List String), probe job = .value (.obj fields) ∧
      Json.get? "audio_object_keys" fields = some (.arr (keys.map Json.str)) ∧
      ∀ key ∈ job.objectKey, key ∉ keys

theorem publication_unreferenced {m : Maintenance} {job : MemoirAudioJob}
    (h : publication m.publishProbe job = .unreferenced) : Unpublished m job := by
  unfold publication at h
  split at h
  · cases h
  next probe hprobe =>
    split at h
    · cases h
    next hnull => exact ⟨probe, hprobe, Or.inl hnull⟩
    next fields hfields =>
      split at h
      · cases h
      next keys hkeys =>
        split at h
        · cases h
        next hnot =>
          exact ⟨probe, hprobe, Or.inr ⟨fields, keys, hfields,
            publishedAudioObjectKeys_some hkeys, fun key hkey hmem => hnot ⟨key, hkey, hmem⟩⟩⟩
    · cases h

/-- Where the cascade ends in a deletion. -/
theorem verdict_deleteCandidate {m : Maintenance} {moment : Time} {job : MemoirAudioJob}
    (h : verdict m moment job = .deleteCandidate) :
    (∀ expiry ∈ job.expiresAt, expiry ≤ moment) ∧ job.state ≠ .submissionUnknown ∧
      Unpublished m job ∧ (job.updatedAt : Int) ≤ retentionEdge m moment := by
  unfold verdict at h
  split at h
  · cases h
  next hlease =>
    split at h
    · cases h
    next hstate =>
      split at h
      · cases h
      next hpub =>
        split at h
        · cases h
        next hedge =>
          refine ⟨fun expiry hexpiry => ?_, hstate, publication_unreferenced hpub,
            Int.not_lt.mp hedge⟩
          exact Nat.not_lt.mp fun hlt => hlease ⟨expiry, hexpiry, hlt⟩
      next =>
        split at h <;> cases h

/-- What the object of a job must meet to be deleted by a pass over `db`. -/
structure Deletable (m : Maintenance) (moment : Time) (db : AudioDb) (job : MemoirAudioJob) :
    Prop where
  row : (reaped m moment db).jobs.find? job.jobId = some job
  orphan : job.state ∈ orphanStates
  settled : job.state ≠ .submissionUnknown
  lease : ∀ expiry ∈ job.expiresAt, expiry ≤ moment
  retention : (job.updatedAt : Int) ≤ retentionEdge m moment
  unpublished : Unpublished m job

/-- Every scanned job has one outcome. -/
structure Accounted (m : Maintenance) (moment : Time) (candidates : List MemoirAudioJob)
    (report : MaintenanceReport) : Prop where
  scanned : report.scanned = candidates.length
  counted : ∀ v, report.count v
    = candidates.countP fun job => decide (verdict m moment job = v)
  total : report.scanned = report.keepInFlight + report.keepLedgerPending + report.keepPublished
    + report.keepWithinRetention + report.deleteCandidates + report.keepUnknown
  executed : m.execute = true → report.deleteCandidates = report.deleted + report.deleteFailed
  dry : m.execute = false → report.deleted = 0 ∧ report.deleteFailed = 0

theorem Tallied.accounted {m : Maintenance} {moment : Time} {jobs : List MemoirAudioJob}
    {report : MaintenanceReport}
    (h : Tallied m moment jobs { scanned := jobs.length } report) :
    Accounted m moment jobs report := by
  have hcount : ∀ v, report.count v
      = jobs.countP fun job => decide (verdict m moment job = v) := by
    intro v
    rw [h.counted v]
    cases v <;> exact Nat.zero_add _
  refine ⟨h.scanned, hcount, ?_, fun hexecute => ?_, fun hdry => ?_⟩
  · rw [h.scanned, ← countP_verdicts m moment jobs, ← hcount, ← hcount, ← hcount, ← hcount,
      ← hcount, ← hcount]
    rfl
  · have hcalls : (deleteCalls m moment jobs).length = report.deleteCandidates := by
      unfold deleteCalls
      rw [if_pos hexecute, List.length_map, ← List.countP_eq_length_filter]
      exact (hcount .deleteCandidate).symm
    rw [h.deleted, h.failed, ← hcalls, ← countP_outcomes (deleteCalls m moment jobs)]
    simp
  · have hnone : deleteCalls m moment jobs = [] := by simp [deleteCalls, hdry]
    rw [h.deleted, h.failed, hnone]
    exact ⟨rfl, rfl⟩

/-- A call of a pass is about a candidate with the last verdict. -/
theorem mem_deleteCalls {m : Maintenance} {moment : Time} {jobs : List MemoirAudioJob}
    {call : DeleteCall} (h : call ∈ deleteCalls m moment jobs) :
    call.job ∈ jobs ∧ verdict m moment call.job = .deleteCandidate ∧
      call = m.callFor call.job := by
  unfold deleteCalls at h
  split at h
  · obtain ⟨job, hjob, rfl⟩ := List.mem_map.mp h
    obtain ⟨hmem, hverdict⟩ := List.mem_filter.mp hjob
    exact ⟨hmem, of_decide_eq_true hverdict, rfl⟩
  · cases h

/-- **Maintenance deletes only orphans.** Whatever the tables, the probe, the
deleter and the clock, a pass ends; it deletes objects of deletable jobs
only, leaves the row of an object it could not delete, counts every scanned
job once, and as a dry run does nothing at all. -/
theorem maintenance_deletes_orphans (m : Maintenance) (moment : Time) (db : AudioDb) :
    ∃ report calls db', runMaintenance m moment db = (.ok (report, calls), db') ∧
      (∀ call ∈ calls, Deletable m moment db call.job ∧
        call.job.objectKey = some call.objectKey) ∧
      (∀ call ∈ calls, call.outcome = .raised →
        db'.jobs.find? call.job.jobId = some call.job) ∧
      Accounted m moment (listOrphanCandidates m.limit (reaped m moment db)) report ∧
      (m.execute = false → calls = [] ∧ db' = db) := by
  let jobs := listOrphanCandidates m.limit (reaped m moment db)
  obtain ⟨report, db', hrun, htally, hframe, hdry⟩ :=
    maintainCandidates_spec m moment jobs { scanned := jobs.length } [] (reaped m moment db)
      (nodup_listOrphanCandidates m.limit _)
      fun job hjob => ⟨(mem_listOrphanCandidates hjob).1, (mem_listOrphanCandidates hjob).2.1⟩
  refine ⟨report, deleteCalls m moment jobs, db', hrun, fun call hcall => ?_,
    fun call hcall hraised => ?_, htally.accounted, fun he => ⟨?_, ?_⟩⟩
  · obtain ⟨hjob, hverdict, hcall⟩ := mem_deleteCalls hcall
    obtain ⟨hfind, horphan, hkey⟩ := mem_listOrphanCandidates hjob
    obtain ⟨hlease, hstate, hunpublished, hedge⟩ := verdict_deleteCandidate hverdict
    refine ⟨⟨hfind, horphan, hstate, hlease, hedge, hunpublished⟩, ?_⟩
    obtain ⟨key, hkey⟩ := Option.ne_none_iff_exists'.mp hkey
    rw [hcall]
    show call.job.objectKey = some (call.job.objectKey.getD "")
    rw [hkey]
    rfl
  · obtain ⟨hjob, -, hcall'⟩ := mem_deleteCalls hcall
    rw [hframe call.job.jobId fun other hother hid => ?_]
    · exact (mem_listOrphanCandidates hjob).1
    obtain ⟨hjob', -, hother'⟩ := mem_deleteCalls hother
    have hfind := (mem_listOrphanCandidates hjob').1
    rw [hid, (mem_listOrphanCandidates hjob).1] at hfind
    injection hfind with hsame
    rw [hother', ← hsame, ← hcall']
    exact hraised
  · simp [deleteCalls, he]
  · rw [hdry he]
    simp [reaped, he]

end MemoirAudioMaintenance

end AgentRuntime
